import Gridwright.Compile
import Gridwright.Proofs.Builder.Views
import Gridwright.Proofs.Classifier.Numbering
import Gridwright.Proofs.Text.Lines

/-!
# What a compilation comes to

The outcome of a compilation is its commands and the messages of its warnings, or the cause
that ended it.  It depends on what the sources ask for and not on the lines that ask for it, so
a text may be cut into several sources wherever no block is open.
-/

namespace Gridwright

/-- The outcome of a compilation, the lines of its error and warnings aside. -/
def outcome (options : CompileOptions) (sources : List Source) :
    Except Cause (List Command × List String) :=
  match compile options sources with
  | .ok compilation => .ok (compilation.commands, compilation.warnings.map (·.message))
  | .error error => .error error.cause

theorem outcome_congr {options : CompileOptions} {first second : List Source}
    (h : Builder.seen Builder.unlocated (buildSources options.build first) =
      Builder.seen Builder.unlocated (buildSources options.build second)) :
    outcome options first = outcome options second := by
  unfold outcome compile
  cases hfirst : buildSources options.build first with
  | error error =>
      cases hsecond : buildSources options.build second with
      | error other =>
          rw [hfirst, hsecond] at h
          exact congrArg Except.error (Except.error.inj h)
      | ok builder =>
          rw [hfirst, hsecond] at h
          cases h
  | ok builder =>
      cases hsecond : buildSources options.build second with
      | error error =>
          rw [hfirst, hsecond] at h
          cases h
      | ok other =>
          rw [hfirst, hsecond] at h
          obtain ⟨-, hgrid, hmessages⟩ :
              builder.context = other.context ∧ builder.grid = other.grid ∧
                builder.warnings.map (·.message) = other.warnings.map (·.message) := by
            simpa [Builder.seen, Builder.unlocated] using h
          simp only [Builder.finish, hgrid]
          cases Script.generate options.mode other.grid with
          | error cause => rfl
          | ok commands => simp only [List.map_append, hmessages]

/-- Sources that ask for the same come to the same. -/
theorem outcome_of_effects {options : CompileOptions} {first second : List Source}
    (h : Builder.effects (directivesOf first) = Builder.effects (directivesOf second)) :
    outcome options first = outcome options second := by
  apply outcome_congr
  exact Builder.seen_applyAll Builder.kept_unlocated {} (by rw [h])

/-! ### Cutting a text -/

def Source.lines (source : Source) : List String :=
  (Text.lines source.text.toList).map String.ofList

theorem Source.newline_not_mem_lines (source : Source) :
    ∀ text ∈ source.lines, '\n' ∉ text.toList := by
  intro text htext
  obtain ⟨line, hline, rfl⟩ := List.mem_map.mp htext
  rw [String.toList_ofList]
  exact Text.newline_not_mem_of_mem_lines hline

theorem Source.effects_directives (source : Source) :
    Builder.effects source.directives = Classifier.effects {} 1 source.lines := by
  rw [Builder.effects, Source.directives, Classifier.map_action_directives]
  rfl

/-- A text that ends with a line feed can be cut behind it. -/
theorem Source.lines_append {first second : Source}
    (hend : first.text = "" ∨ first.text.toList.getLast? = some '\n') (name : String) :
    Source.lines ⟨name, first.text ++ second.text⟩ = first.lines ++ second.lines := by
  have hchars : first.text.toList = [] ∨ first.text.toList.getLast? = some '\n' := by
    refine hend.imp ?_ id
    intro hempty
    rw [hempty]
    rfl
  simp only [lines, String.toList_append, Text.lines_append hchars, List.map_append]

/-- A run that meets an error goes no further. -/
theorem Builder.applyAll_append_of_error {options : BuildOptions} {first : List Directive}
    (herror : ∃ directive ∈ first, directive.action.isError = true) (builder : Builder)
    (second : List Directive) :
    builder.applyAll options (first ++ second) = builder.applyAll options first := by
  induction first generalizing builder with
  | nil => simp at herror
  | cons directive rest ih =>
      simp only [List.cons_append, applyAll]
      cases happly : builder.apply options directive with
      | error error => rfl
      | ok next =>
          refine ih ?_ next
          obtain ⟨found, hmem, hfound⟩ := herror
          rcases List.mem_cons.mp hmem with rfl | hrest
          · have hact := apply_eq_ok_iff.mp happly
            cases haction : found.action with
            | error message =>
                rw [haction] at hact
                cases hact
            | _ =>
                rw [haction] at hfound
                cases hfound
          · exact ⟨found, hrest, hfound⟩

/-- Behind a text that leaves no block open, the next text is read as if it stood alone, or
not at all. -/
theorem Classifier.effects_behind (lines : List String)
    (hclosed : ∀ block, (after {} 1 lines).place ≠ .inside block) (more : List String) :
    (after {} 1 lines).effects (1 + lines.length) more = effects {} 1 more ∨
      (after {} 1 lines).place = .failed ∧
        (after {} 1 lines).effects (1 + lines.length) more = [] := by
  have hstanding := standing_of_source lines
  cases hplace : (after {} 1 lines).place with
  | inside block => exact absurd hplace (hclosed block)
  | failed => exact .inr ⟨rfl, effects_of_failed hplace _ more⟩
  | outside =>
      left
      have hfresh := hstanding.eq_enter hclosed
      rw [hplace] at hfresh
      rw [hfresh, effects,
        (Alike.enter .outside 1 _).actions (standing_enter _ _) (standing_enter _ _) more]
      rfl

/-- Whatever the options, two sources come to the same as one source with both texts, if the
first text ends with a line feed or is empty and leaves no block open. -/
theorem outcome_two_sources (options : CompileOptions) {first second : Source}
    (hend : first.text = "" ∨ first.text.toList.getLast? = some '\n')
    (hclosed : ∀ block, (Classifier.after {} 1 first.lines).place ≠ .inside block)
    (name : String) :
    outcome options [first, second] = outcome options [⟨name, first.text ++ second.text⟩] := by
  have htwo : directivesOf [first, second] = first.directives ++ second.directives := by
    simp [directivesOf]
  have hone : Builder.effects (directivesOf [⟨name, first.text ++ second.text⟩]) =
      Builder.effects first.directives ++
        (Classifier.after {} 1 first.lines).effects (1 + first.lines.length) second.lines := by
    rw [directivesOf, List.flatMap_singleton, Source.effects_directives, Source.lines_append hend,
      Classifier.effects_append, Source.effects_directives]
  rcases Classifier.effects_behind first.lines hclosed second.lines with hsame | ⟨hfailed, hnone⟩
  · apply outcome_of_effects
    rw [hone, hsame, htwo, Builder.effects_append, Source.effects_directives second]
  -- After an error the rest of one source is not read at all, and the builder stops before the
  -- directives of another source.
  · have herror : ∃ directive ∈ first.directives, directive.action.isError = true :=
      (Classifier.covers_directives {} (by simp) first.name 1 first.newline_not_mem_lines).2.mp
        hfailed
    apply outcome_congr
    simp only [buildSources, htwo]
    rw [Builder.applyAll_append_of_error herror]
    refine Builder.seen_applyAll Builder.kept_unlocated {} ?_
    rw [hone, hnone, List.append_nil]

theorem outcome_two_sources_sample :
    let first : Source := ⟨"rooms", "REVERSE \"out\" \"in\"\n\"out\" : \"Hall\" <-> \"Yard\"\n"⟩
    let second : Source := ⟨"code", "IN \"Hall\"\n> one\n> two\nENDIN\n"⟩
    first.text.toList.getLast? = some '\n' ∧
      (Classifier.after {} 1 first.lines).place = .outside ∧
      outcome {} [first, second] = outcome {} [⟨"all", first.text ++ second.text⟩] := by
  intro first second
  have hend : first.text.toList.getLast? = some '\n' := by decide +kernel
  have hplace : (Classifier.after {} 1 first.lines).place = .outside := by decide +kernel
  exact ⟨hend, hplace, outcome_two_sources {} (.inr hend) (by simp [hplace]) "all"⟩

end Gridwright
