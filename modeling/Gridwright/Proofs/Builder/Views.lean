import Gridwright.Proofs.Builder.Run

/-!
# What a run shows

Two runs are compared by what can be seen of them: a view of the builder at the end, or the
cause that ended the run.  A view that every single action keeps is kept by whole runs
(`seen_applyAll`), and directives that do nothing are not seen at all.

The first such view leaves out the lines that warnings are about: an action looks at the
context and the grid of a builder, never at its own line or at earlier warnings.
-/

namespace Gridwright.Builder

variable {options : BuildOptions}

/-! ### Directives that do nothing -/

/-- The actions of directives, those that do nothing left out. -/
def effects (directives : List Directive) : List Action :=
  (directives.map (·.action)).filter (· ≠ .nop)

theorem effects_append (first second : List Directive) :
    effects (first ++ second) = effects first ++ effects second := by
  simp only [effects, List.map_append, List.filter_append]

theorem applyAll_filter (builder : Builder) (directives : List Directive) :
    builder.applyAll options (directives.filter (·.action ≠ .nop)) =
      builder.applyAll options directives := by
  induction directives generalizing builder with
  | nil => rfl
  | cons directive rest ih =>
      by_cases hnop : directive.action = .nop
      · have happly : builder.apply options directive = .ok builder :=
          apply_eq_ok_iff.mpr (by rw [hnop, act])
        rw [List.filter_cons_of_neg (by simp [hnop]), ih, applyAll, happly]
      · rw [List.filter_cons_of_pos (by simp [hnop])]
        simp only [applyAll]
        cases builder.apply options directive with
        | ok next => exact ih next
        | error error => rfl

/-! ### Views of runs -/

section

variable {α β : Type}

/-- What is seen of a run. -/
def seen (view : Builder → α) : Except Error Builder → Except Cause α
  | .ok builder => .ok (view builder)
  | .error error => .error error.cause

/-- A view of builders that every action keeps, where an action counts as another if they look
the same. -/
def Kept (options : BuildOptions) (view : Builder → α) (look : Action → β) : Prop :=
  ∀ (builder other : Builder) (action action' : Action) (location location' : Location),
    view builder = view other → look action = look action' →
      (builder.act options location action).map view =
        (other.act options location' action').map view

theorem seen_applyAll_of_map {view : Builder → α} {look : Action → β}
    (hkept : Kept options view look) {builder other : Builder} (hview : view builder = view other)
    {first second : List Directive}
    (hlook : first.map (look ·.action) = second.map (look ·.action)) :
    seen view (builder.applyAll options first) = seen view (other.applyAll options second) := by
  induction first generalizing builder other second with
  | nil =>
      cases second with
      | nil => exact congrArg Except.ok hview
      | cons directive rest => cases hlook
  | cons directive rest ih =>
      cases second with
      | nil => cases hlook
      | cons directive' rest' =>
          obtain ⟨haction, hrest⟩ := List.cons.inj hlook
          have hact := hkept builder other directive.action directive'.action directive.location
            directive'.location hview haction
          simp only [applyAll, apply]
          cases hfirst : builder.act options directive.location directive.action with
          | error cause =>
              cases hsecond : other.act options directive'.location directive'.action with
              | error cause' =>
                  rw [hfirst, hsecond] at hact
                  cases hact
                  rfl
              | ok next =>
                  rw [hfirst, hsecond] at hact
                  cases hact
          | ok next =>
              cases hsecond : other.act options directive'.location directive'.action with
              | error cause =>
                  rw [hfirst, hsecond] at hact
                  cases hact
              | ok next' =>
                  rw [hfirst, hsecond] at hact
                  exact ih (Except.ok.inj hact) hrest

/-- Runs of directives whose effects look the same are seen alike. -/
theorem seen_applyAll {view : Builder → α} {look : Action → β}
    (hkept : Kept options view look) (builder : Builder) {first second : List Directive}
    (hlook : (effects first).map look = (effects second).map look) :
    seen view (builder.applyAll options first) = seen view (builder.applyAll options second) := by
  rw [← applyAll_filter builder first, ← applyAll_filter builder second]
  refine seen_applyAll_of_map hkept rfl ?_
  simpa [effects, List.filter_map, Function.comp_def] using hlook

end

/-! ### Runs without their lines -/

/-- A builder without the lines that its warnings are about. -/
def unlocated (builder : Builder) : Context × Grid × List String :=
  (builder.context, builder.grid, builder.warnings.map (·.message))

/-- The builder with warnings about a line behind its own, which are taken from another
builder with its context and grid. -/
def addWarnings (builder : Builder) (location : Location) (next : Builder) : Builder :=
  { next with
    warnings := builder.warnings ++
      next.warnings.map fun warning => { warning with location := some location } }

theorem setReverse_eq (builder : Builder) (location : Location) (exit back : Label) :
    builder.setReverse location exit back =
      { builder with
        context :=
          { builder.context with reverses := builder.context.reverses.insert exit back }
        warnings := builder.warnings ++
          ((builder.context.reverses.find? exit).map fun before =>
            { location := some location
              message := "Replacing reverse definition " ++ exit.text ++ "->" ++ before.text ++
                " with " ++ exit.text ++ "->" ++ back.text : Warning }).toList } := by
  unfold setReverse
  cases builder.context.reverses.find? exit <;> simp [warn]

/-- An action looks at the context and the grid alone, and puts its warnings behind those that
are there. -/
theorem act_eq (builder : Builder) (location elsewhere : Location) (action : Action) :
    builder.act options location action =
      (act options elsewhere ⟨builder.context, builder.grid, []⟩ action).map
        (builder.addWarnings location) := by
  cases action with
  | nop | attrBase | setFlags | warning | setReference =>
      simp [act, addWarnings, Except.map, setAttrBase, setFlags, warn, setReference]
  | error => rfl
  | exitAlias exit names =>
      simp only [act, setAlias]
      cases builder.context.aliases.find? exit <;> simp [warn, addWarnings, Except.map]
  | reverse exit back =>
      simp only [act, setReverses, setReverse_eq]
      split <;> simp [addWarnings, Except.map, Option.toList_map, Function.comp_def]
  | createRoom room =>
      simp only [act, createRoom, newRoom, Except.map]
      split <;> simp [addWarnings]
  | createExit exit source target =>
      simp only [act, createExit, newExit]
      split
      · rfl
      · split
        · rfl
        · split <;> simp [addWarnings, Except.map]
  | createReverseExit exit source target =>
      simp only [act, createReverseExit, createExit, newExit]
      split
      · rfl
      · split
        · rfl
        · split
          · rfl
          · split <;> simp [addWarnings, Except.map]
  | bufferRoom room text =>
      simp only [act, bufferRoom]
      split <;> simp [addWarnings, Except.map]
  | bufferExit room exit text =>
      simp only [act, bufferExit]
      split
      · rfl
      · split <;> simp [addWarnings, Except.map]

theorem unlocated_addWarnings (builder : Builder) (location : Location) (next : Builder) :
    (builder.addWarnings location next).unlocated =
      (next.context, next.grid,
        builder.warnings.map (·.message) ++ next.warnings.map (·.message)) := by
  simp [unlocated, addWarnings]

theorem kept_unlocated : Kept options unlocated id := by
  intro builder other action action' location location' hview haction
  cases haction
  simp only [unlocated, Prod.mk.injEq] at hview
  obtain ⟨hcontext, hgrid, hmessages⟩ := hview
  rw [act_eq builder location location, act_eq other location' location, hcontext, hgrid]
  cases act options location ⟨other.context, other.grid, []⟩ action with
  | error cause => rfl
  | ok next =>
      simp only [Except.map, unlocated_addWarnings, hmessages]

end Gridwright.Builder
