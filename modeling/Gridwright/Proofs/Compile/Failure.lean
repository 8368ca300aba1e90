import Gridwright.Compile
import Gridwright.Proofs.Builder.Declared
import Gridwright.Proofs.Classifier.RoomsFirst
import Gridwright.Proofs.Script.Closed

/-!
# How a compilation fails

Once all directives have been applied nothing can go wrong: the grid is coherent, and
there is a script for every coherent grid.  So a compilation fails at a directive or not
at all.  Links create their rooms before their exits, which leaves few ways to fail:
`Action.Raises` lists them.
-/

namespace Gridwright

/-- What can be wrong with an action whose rooms were created before it. -/
inductive Action.Raises : Action → Cause → Prop
  | error (message : String) : Raises (.error message) (.directive message)
  | missingReverse (exit source target : Label) :
      Raises (.createReverseExit exit source target) (.missingReverse exit)
  | duplicateExit (exit source target : Label) :
      Raises (.createExit exit source target) (.duplicateExit exit source)
  | duplicateReverse (exit source target back : Label) :
      Raises (.createReverseExit exit source target) (.duplicateExit back target)
  | bufferRoom (room : Label) (text : String) :
      Raises (.bufferRoom room text) (.roomMissing room)
  | bufferExit (room exit : Label) (text : String) :
      Raises (.bufferExit room exit text) (.roomMissing room)
  | exitMissing (room exit : Label) (text : String) :
      Raises (.bufferExit room exit text) (.exitMissing exit room)

namespace Builder

variable {options : BuildOptions} {builder : Builder}

theorem createExit_error_of_joined {label source target : Label} {cause : Cause}
    (hsource : builder.grid.hasRoom source = true) (htarget : builder.grid.hasRoom target = true)
    (h : builder.createExit options label source target = .error cause) :
    cause = .duplicateExit label source := by
  rcases createExit_eq_error_iff.mp h with ⟨hmissing, -⟩ | ⟨-, hmissing, -⟩ | ⟨-, -, hcause⟩
  · rw [hsource] at hmissing
    cases hmissing
  · rw [htarget] at hmissing
    cases hmissing
  · exact hcause

/-- An action that joins rooms of the grid only fails in one of the listed ways. -/
theorem raises_of_act_error {location : Location} {action : Action} {cause : Cause}
    (hjoined : ∀ room ∈ action.joined, builder.grid.hasRoom room = true)
    (h : builder.act options location action = .error cause) : action.Raises cause := by
  cases action with
  | nop | warning | attrBase | exitAlias | reverse | setReference | setFlags | createRoom => cases h
  | error message =>
      cases h
      exact .error message
  | createExit exit source target =>
      have hsource := hjoined source (by simp [Action.joined])
      have htarget := hjoined target (by simp [Action.joined])
      rw [createExit_error_of_joined hsource htarget h]
      exact .duplicateExit exit source target
  | createReverseExit exit source target =>
      have hsource := hjoined source (by simp [Action.joined])
      have htarget := hjoined target (by simp [Action.joined])
      rcases createReverseExit_eq_error_iff.mp h with ⟨-, rfl⟩ | ⟨back, -, hopen⟩
      · exact .missingReverse exit source target
      · rw [createExit_error_of_joined htarget hsource hopen]
        exact .duplicateReverse exit source target back
  | bufferRoom room text =>
      obtain ⟨rfl, -, -⟩ := bufferRoom_eq_error_iff.mp h
      exact .bufferRoom room text
  | bufferExit room exit text =>
      rcases bufferExit_eq_error_iff.mp h with ⟨-, rfl⟩ | ⟨-, -, rfl⟩
      · exact .bufferExit room exit text
      · exact .exitMissing room exit text

end Builder

/-- Where a compilation of sources stands, the rooms that the next directive joins are
there. -/
theorem hasRoom_of_joined {options : BuildOptions} {sources : List Source}
    {before after : List Directive} {directive : Directive} {builder : Builder}
    (hsplit : directivesOf sources = before ++ directive :: after)
    (hrun : Builder.applyAll options {} before = .ok builder) :
    ∀ room ∈ directive.action.joined, builder.grid.hasRoom room = true := by
  intro room hroom
  have hactions : (directivesOf sources).map (·.action) =
      before.map (·.action) ++ directive.action :: after.map (·.action) := by
    rw [hsplit, List.map_append, List.map_cons]
  obtain ⟨creating, hmem, haction⟩ :=
    List.mem_map.mp (roomsFirst_directivesOf sources _ _ _ hactions room hroom)
  exact (Built.of_applyAll hrun).hasRoom_iff_created.mpr
    (Declared.mem_created_iff.mpr ⟨creating, hmem, haction⟩)

/-- Whatever the sources, the options and the mode: a compilation whose directives all
succeed ends with a script, and one that fails is ended by a directive, whose line is
in the error and which fails in one of the ways listed in `Action.Raises`. -/
theorem compile_succeeds_or_directive_fails (options : CompileOptions) (sources : List Source) :
    (∃ builder commands, buildSources options.build sources = .ok builder ∧
      Script.generate options.mode builder.grid = .ok commands ∧
      compile options sources =
        .ok { commands, warnings := builder.warnings ++ Script.warnings commands }) ∨
    (∃ before directive after builder error,
      directivesOf sources = before ++ directive :: after ∧
      Builder.applyAll options.build {} before = .ok builder ∧
      builder.apply options.build directive = .error error ∧
      buildSources options.build sources = .error error ∧
      compile options sources = .error error ∧
      error.location = some directive.location ∧ directive.action.Raises error.cause) := by
  cases hbuild : buildSources options.build sources with
  | ok builder =>
      left
      have hcoherent : builder.Coherent := Builder.coherent_of_applyAll hbuild
      obtain ⟨commands, hcommands⟩ := Script.exists_generate_eq_ok hcoherent.grid options.mode
      refine ⟨builder, commands, rfl, hcommands, ?_⟩
      simp only [compile, hbuild, Builder.finish, hcommands]
  | error error =>
      right
      obtain ⟨before, directive, after, builder, hsplit, hbefore, hfails⟩ :=
        Builder.exists_of_applyAll_error hbuild
      obtain ⟨hact, hlocation⟩ := Builder.apply_eq_error_iff.mp hfails
      refine ⟨before, directive, after, builder, error, hsplit, hbefore, hfails, rfl, ?_,
        hlocation, ?_⟩
      · simp only [compile, hbuild]
      · exact Builder.raises_of_act_error (hasRoom_of_joined hsplit hbefore) hact

end Gridwright
