import Gridwright.Proofs.Line.Hops

/-!
# Link lines are read as they are written

A written link is taken apart twice: once as a whole, to fix its exit, its first room and where
its hops begin (`link?_written`), and once more to tell the hops apart (`hops_written`).  Both
agree with what was written, however many hops there are, since every label ends at a blank
character or with the line.
-/

namespace Gridwright.Line

open Gridwright.Text

/-- The text of a path behind its first room. -/
def pathText (hops : List WrittenHop) : List Char := hops.flatMap (·.written.toList)

theorem pathText_cons (hop : WrittenHop) (more : List WrittenHop) :
    pathText (hop :: more) =
      ' ' :: (arrowText hop.twoWay ++ ' ' :: '"' :: (hop.room.inner ++ pathText more)) := by
  cases htwoWay : hop.twoWay <;>
    simp [pathText, WrittenHop.written, arrowText, WrittenLabel.toList_written, htwoWay]

theorem ends_pathText (hops : List WrittenHop) : Ends (pathText hops) := by
  cases hops with
  | nil => simp [Ends, pathText]
  | cons hop more => simp [Ends, pathText_cons, isBlank_space]

theorem solid_last_pathText (hops : List WrittenHop) :
    ∀ c ∈ (pathText hops).getLast?, isBlank c = false := by
  induction hops with
  | nil => simp [pathText]
  | cons hop more ih =>
      intro c hc
      have hinner : hop.room.inner ++ pathText more ≠ [] := by simp [WrittenLabel.inner]
      have hlast : (pathText (hop :: more)).getLast? =
          (hop.room.inner ++ pathText more).getLast? := by
        rw [pathText_cons, ← List.cons_append, List.getLast?_append_of_ne_nil _ (by simp),
          List.getLast?_cons_cons, List.getLast?_cons_of_ne_nil hinner]
      rw [hlast, List.getLast?_append] at hc
      cases hmore : (pathText more).getLast? with
      | some d =>
          rw [hmore] at hc
          cases hc
          exact ih c hmore
      | none =>
          rw [hmore] at hc
          exact hop.room.solid_last hc

theorem trimEnd_pathText (hops : List WrittenHop) : trimEnd (pathText hops) = pathText hops :=
  trimEnd_eq_self_iff.mpr (solid_last_pathText hops)

/-! ### Reading a link -/

theorem plain_pathText (path : List WrittenHop) :
    Path PlainParts (pathText path) (path.map (·.hop)) := by
  induction path with
  | nil => exact .nil rfl
  | cons hop more ih =>
      have htext : pathText (hop :: more) = [' '] ++ (arrowText hop.twoWay ++ ([' '] ++
          '"' :: (hop.room.name.chars ++ '"' :: (hop.room.suffix ++ pathText more)))) := by
        simp [pathText_cons, WrittenLabel.inner]
      have hroom := hop.room.plainParts (ends_pathText more)
      rw [htext, List.map_cons, WrittenHop.hop, ← hop.room.mk_eq_label]
      exact .cons (by decide) (.mk hop.twoWay (by decide) hroom) ih

theorem link?_written (exit first : WrittenLabel) (hop : WrittenHop) (more : List WrittenHop) :
    link? ('"' :: (exit.inner ++
        (" : ".toList ++ '"' :: (first.inner ++ pathText (hop :: more))))) =
      some ('"' :: exit.inner, '"' :: first.inner, pathText (hop :: more)) := by
  have hworth : Link.firstWorth (pathText (hop :: more)) = some (pathText (hop :: more)) := by
    refine Link.firstWorth_eq_some_iff.mpr ⟨rfl, ?_⟩
    rw [Link.matched_of_plain (plain_pathText (hop :: more))]
    rfl
  have htext : first.inner ++ pathText (hop :: more) =
      first.name.chars ++ '"' :: (first.suffix ++ pathText (hop :: more)) := by
    simp [WrittenLabel.inner]
  have hfirst := OpenLabel.head?_ends (first.plainParts (ends_pathText (hop :: more)))
  rw [← htext] at hfirst
  rw [link?_of_pick exit (OpenLabel.pick_of_head? hfirst hworth), trimEnd_pathText]
  rfl

theorem hops_written (path : List WrittenHop) : hops (pathText path) = path.map (·.hop) :=
  hops_of_plain (plain_pathText path)

end Gridwright.Line
