import Gridwright.Builder
import Mathlib.Data.List.Induction

/-!
# Runs of a builder

A builder takes directives one after another, so a fact about every run is proved
from what a single directive does, by induction over the run: `applyAll_induction`.

A run can also go on behind a directive that fails, as if that directive were not
there.  `applyAll_accepted` says that this is a run of the directives that
succeeded, so the same induction covers it.
-/

namespace Gridwright.Builder

variable {options : BuildOptions}

/-! ### Single directives -/

theorem apply_eq_ok_iff {builder next : Builder} {directive : Directive} :
    builder.apply options directive = .ok next ↔
      builder.act options directive.location directive.action = .ok next := by
  unfold apply
  cases builder.act options directive.location directive.action <;> simp

theorem apply_eq_error_iff {builder : Builder} {directive : Directive} {error : Error} :
    builder.apply options directive = .error error ↔
      builder.act options directive.location directive.action = .error error.cause ∧
        error.location = some directive.location := by
  unfold apply
  cases builder.act options directive.location directive.action with
  | ok next => simp
  | error cause =>
      obtain ⟨found, location⟩ := error
      simp [eq_comm]

/-! ### Running up to the first failure -/

theorem applyAll_append (builder : Builder) (first second : List Directive) :
    builder.applyAll options (first ++ second) =
      match builder.applyAll options first with
      | .ok next => next.applyAll options second
      | .error error => .error error := by
  induction first generalizing builder with
  | nil => rfl
  | cons directive rest ih =>
      simp only [List.cons_append, applyAll]
      cases builder.apply options directive with
      | ok next => exact ih next
      | error error => rfl

theorem applyAll_snoc_eq_ok_iff {builder next : Builder} {directives : List Directive}
    {directive : Directive} :
    builder.applyAll options (directives ++ [directive]) = .ok next ↔
      ∃ before, builder.applyAll options directives = .ok before ∧
        before.apply options directive = .ok next := by
  rw [applyAll_append]
  cases builder.applyAll options directives with
  | error error => simp
  | ok before =>
      simp only [applyAll]
      cases happly : before.apply options directive <;> simp [happly]

/-- What holds of a fresh builder and is kept by every directive that succeeds holds
after every run that succeeds. -/
theorem applyAll_induction {motive : List Directive → Builder → Prop} (hstart : motive [] {})
    (hstep : ∀ directives builder directive next, motive directives builder →
      builder.act options directive.location directive.action = .ok next →
        motive (directives ++ [directive]) next)
    {directives : List Directive} {builder : Builder}
    (hrun : applyAll options {} directives = .ok builder) : motive directives builder := by
  induction directives using List.reverseRecOn generalizing builder with
  | nil =>
      cases hrun
      exact hstart
  | append_singleton directives directive ih =>
      obtain ⟨before, hbefore, happly⟩ := applyAll_snoc_eq_ok_iff.mp hrun
      exact hstep directives before directive builder (ih hbefore) (apply_eq_ok_iff.mp happly)

/-- A run that fails stops at a directive that fails. -/
theorem exists_of_applyAll_error {builder : Builder} {directives : List Directive}
    {error : Error} (hrun : builder.applyAll options directives = .error error) :
    ∃ before directive after next, directives = before ++ directive :: after ∧
      builder.applyAll options before = .ok next ∧
        next.apply options directive = .error error := by
  induction directives generalizing builder with
  | nil => cases hrun
  | cons directive rest ih =>
      cases happly : builder.apply options directive with
      | error found =>
          simp only [applyAll, happly] at hrun
          exact ⟨[], directive, rest, builder, rfl, rfl, by rw [happly, hrun]⟩
      | ok next =>
          simp only [applyAll, happly] at hrun
          obtain ⟨before, last, after, reached, rfl, hbefore, hlast⟩ := ih hrun
          exact ⟨directive :: before, last, after, reached, rfl,
            by simp only [applyAll, happly, hbefore], hlast⟩

/-- A run of which something is seen at its end is a run that succeeds. -/
theorem exists_of_map_applyAll {α : Type} {view : Builder → α} {seen : α} {builder : Builder}
    {directives : List Directive}
    (hview : (builder.applyAll options directives).map view = .ok seen) :
    ∃ next, builder.applyAll options directives = .ok next ∧ view next = seen := by
  cases hrun : builder.applyAll options directives with
  | error error =>
      rw [hrun] at hview
      cases hview
  | ok next =>
      rw [hrun] at hview
      exact ⟨next, rfl, Except.ok.inj hview⟩

theorem exists_of_decide_applyAll {holds : Builder → Prop} [DecidablePred holds]
    {builder : Builder} {directives : List Directive}
    (h : (builder.applyAll options directives).map (fun next => decide (holds next)) = .ok true) :
    ∃ next, builder.applyAll options directives = .ok next ∧ holds next := by
  obtain ⟨next, hrun, hholds⟩ := exists_of_map_applyAll h
  exact ⟨next, hrun, of_decide_eq_true hholds⟩

/-! ### Running past failures -/

/-- The builder after a directive, or as it was if the directive fails. -/
def attempt (options : BuildOptions) (builder : Builder) (directive : Directive) : Builder :=
  match builder.apply options directive with
  | .ok next => next
  | .error _ => builder

/-- Applies directives in order and skips those that fail. -/
def attemptAll (options : BuildOptions) (builder : Builder) (directives : List Directive) :
    Builder :=
  directives.foldl (attempt options) builder

/-- The directives that succeed when those that fail are skipped. -/
def accepted (options : BuildOptions) (builder : Builder) : List Directive → List Directive
  | [] => []
  | directive :: rest =>
    match builder.apply options directive with
    | .ok next => directive :: accepted options next rest
    | .error _ => accepted options builder rest

/-- Skipping the directives that fail comes to running those that succeed. -/
theorem applyAll_accepted (builder : Builder) (directives : List Directive) :
    builder.applyAll options (builder.accepted options directives) =
      .ok (builder.attemptAll options directives) := by
  induction directives generalizing builder with
  | nil => rfl
  | cons directive rest ih =>
      simp only [attemptAll, List.foldl_cons, attempt, accepted]
      cases happly : builder.apply options directive with
      | ok next =>
          simp only [applyAll, happly]
          exact ih next
      | error error => exact ih builder

end Gridwright.Builder
