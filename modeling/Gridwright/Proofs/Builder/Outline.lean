import Gridwright.Proofs.Builder.Code
import Gridwright.Proofs.Builder.Views
import Gridwright.Proofs.Grid.Outline

/-!
# Code decides nothing

What an action makes of the outline of a grid does not depend on the code in the grid or in the
action.  So two runs that differ in texts of code only end for the same cause, or with the same
outline; and what becomes of the code is known for every run.
-/

namespace Gridwright

/-- An action without the code that it adds. -/
def Action.outline : Action → Action
  | .bufferRoom room _ => .bufferRoom room ""
  | .bufferExit room exit _ => .bufferExit room exit ""
  | action => action

namespace Builder

variable {options : BuildOptions} {context : Context} {grid : Grid}

/-- A builder without code and without the lines that its warnings are about. -/
def outline (builder : Builder) : Context × Grid × List String :=
  (builder.context, builder.grid.outline, builder.warnings.map (·.message))

/-- A builder whose grid is replaced, or which fails if there is none to replace it. -/
theorem map_outline_grid (cause : Cause) (found other : Option Grid) :
    found.map Grid.outline = other.map Grid.outline →
      (match found with
        | none => .error cause
        | some grid => .ok ⟨context, grid, []⟩ : Except Cause Builder).map outline =
      (match other with
        | none => .error cause
        | some grid => .ok ⟨context, grid, []⟩ : Except Cause Builder).map outline := by
  intro h
  cases found with
  | none =>
      cases other with
      | none => rfl
      | some grid => cases h
  | some grid =>
      cases other with
      | none => cases h
      | some next =>
          have hgrid : grid.outline = next.outline := Option.some.inj h
          simp only [Except.map, outline, hgrid]

theorem map_outline_createExit (label source target : Label) :
    (createExit options ⟨context, grid, []⟩ label source target).map outline =
      (createExit options ⟨context, grid.outline, []⟩ label source target).map outline := by
  simp only [createExit, Grid.hasRoom_outline]
  split
  · rfl
  · split
    · rfl
    · exact map_outline_grid _ _ _ (Grid.map_outline_addExit? _)

theorem outline_createRoom (label : Label) :
    (createRoom ⟨context, grid, []⟩ label).outline =
      (createRoom ⟨context, grid.outline, []⟩ label).outline := by
  cases hroom : grid.hasRoom label with
  | true =>
      have houtline : grid.outline.hasRoom label = true := by rw [Grid.hasRoom_outline, hroom]
      rw [createRoom_of_hasRoom hroom, createRoom_of_hasRoom houtline]
      simp [outline]
  | false =>
      have houtline : grid.outline.hasRoom label = false := by rw [Grid.hasRoom_outline, hroom]
      rw [createRoom_of_not_hasRoom hroom, createRoom_of_not_hasRoom houtline]
      simp only [outline, Grid.outline_withRoom, Grid.outline_resolvePending, Grid.outline_outline]
      rfl

theorem map_outline_code (label : Label) (text : String) :
    (grid.appendRoom? label text <|> grid.appendPlaceholder? label text).map Grid.outline =
      (grid.outline.appendRoom? label "" <|> grid.outline.appendPlaceholder? label "").map
        Grid.outline := by
  have hmap : ∀ first second : Option Grid,
      (first <|> second).map Grid.outline =
        (first.map Grid.outline <|> second.map Grid.outline) := by
    intro first second
    cases first <;> rfl
  simp only [hmap, Grid.map_outline_appendRoom?, Grid.map_outline_appendPlaceholder?,
    Grid.hasRoom_outline, Grid.isSome_placeholder?_outline, Grid.outline_outline]

/-- An action acts on the outline of the grid. -/
theorem map_outline_act (location : Location) (action : Action) :
    (act options location ⟨context, grid, []⟩ action).map outline =
      (act options location ⟨context, grid.outline, []⟩ action.outline).map outline := by
  cases action with
  | nop | warning | attrBase | setFlags =>
      simp [act, Action.outline, Except.map, outline, warn, setAttrBase, setFlags]
  | error => rfl
  | exitAlias exit names =>
      simp only [act, Action.outline, setAlias]
      cases context.aliases.find? exit <;> simp [Except.map, outline, warn]
  | reverse exit back =>
      simp only [act, Action.outline, setReverses, setReverse_eq]
      split <;> simp [Except.map, outline]
  | setReference kind slot value =>
      simp only [act, Action.outline, setReference]
      cases value.bind (·.target?) <;> simp [Except.map, outline, Grid.outline_track]
  | createRoom room =>
      refine congrArg Except.ok ?_
      exact outline_createRoom room
  | createExit exit source target => exact map_outline_createExit exit source target
  | createReverseExit exit source target =>
      simp only [act, Action.outline, createReverseExit]
      cases context.reverses.find? exit with
      | none => rfl
      | some back => exact map_outline_createExit back target source
  | bufferRoom room text =>
      exact map_outline_grid _ _ _ (map_outline_code room text)
  | bufferExit room exit text =>
      simp only [act, Action.outline, bufferExit, Grid.hasRoom_outline]
      split
      · rfl
      · refine map_outline_grid _ _ _ ?_
        simp only [Grid.map_outline_appendExit?, Grid.isSome_exit?_outline, Grid.outline_outline]

theorem outline_addWarnings (builder : Builder) (location : Location) (next : Builder) :
    (builder.addWarnings location next).outline =
      (next.outline.1, next.outline.2.1,
        builder.warnings.map (·.message) ++ next.outline.2.2) := by
  simp [outline, addWarnings]

theorem kept_outline : Kept options outline Action.outline := by
  intro builder other action action' location location' hview haction
  simp only [outline, Prod.mk.injEq] at hview
  obtain ⟨hcontext, hgrid, hmessages⟩ := hview
  have hact : (act options location ⟨builder.context, builder.grid, []⟩ action).map outline =
      (act options location ⟨other.context, other.grid, []⟩ action').map outline := by
    rw [map_outline_act, hcontext, hgrid, haction, ← map_outline_act]
  have hshape : ∀ (builder : Builder) (location : Location) (result : Except Cause Builder),
      (result.map (builder.addWarnings location)).map outline =
        (result.map outline).map fun seen =>
          (seen.1, seen.2.1, builder.warnings.map (·.message) ++ seen.2.2) := by
    intro builder location result
    cases result with
    | error cause => rfl
    | ok next => simp only [Except.map, outline_addWarnings]
  rw [act_eq builder location location, act_eq other location' location, hshape, hshape, hact,
    hmessages]

/-! ### Code -/

theorem textFor_eq (owner : Owner) (directives : List Directive) :
    textFor owner directives = String.join ((effects directives).filterMap (·.textFor? owner)) := by
  rw [textFor, effects, List.filterMap_filter, List.filterMap_map]
  congr 2
  funext directive
  by_cases hnop : directive.action = .nop
  · have hnone : Action.nop.textFor? owner = none := by cases owner <;> rfl
    simp [hnop, hnone]
  · simp [hnop]

/-- The text of one action stands between those of the actions around it. -/
theorem textFor_of_effects {directives : List Directive} {start rest : List Action}
    {action : Action} (h : effects directives = start ++ action :: rest) (owner : Owner) :
    textFor owner directives =
      String.join (start.filterMap (·.textFor? owner)) ++ (action.textFor? owner).getD "" ++
        String.join (rest.filterMap (·.textFor? owner)) := by
  rw [textFor_eq, h, List.filterMap_append, String.join_append, List.filterMap_cons,
    String.append_assoc]
  cases action.textFor? owner with
  | none => simp
  | some text => simp

end Builder

end Gridwright
