import Gridwright.Proofs.Classifier.Numbering
import Gridwright.Proofs.Text.Lines

/-!
# Lines that are there for the layout

Blank lines and comments ask for nothing.  One that is put between other lines moves all that
follow it one line down, so by what line numbers decide nothing changes, unless it comes between
two literal lines that followed each other directly.
-/

namespace Gridwright

open Gridwright.Text

/-- A line that asks for nothing where it stands: a blank line or, indented or not, a comment of
the kind that the place knows. -/
inductive Quiet : Place → String → Prop
  | blank {place : Place} {line : String} (hblank : Line.isBlankText line.toList = true) :
      Quiet place line
  | comment {line : String} (hstart : "#".toList <+: trimStart line.toList) : Quiet .outside line
  | ignored {block : Block} {line : String} (hstart : "@@".toList <+: trimStart line.toList) :
      Quiet (.inside block) line

/-- Lines that are cut right between two literal lines of a block, and the text of the second
one. -/
inductive BetweenLiterals (block : Block) (behind : String) : List String → List String → Prop
  | intro {earlier later : List String} {first second above : String}
      (hplace : (Classifier.after {} 1 earlier).place = .inside block)
      (hfirst : literalText? first = some above) (hsecond : literalText? second = some behind) :
      BetweenLiterals block behind (earlier ++ [first]) (second :: later)

namespace Classifier

variable {classifier : Classifier}

theorem classify_quiet {line : String} (hlive : classifier.place ≠ .failed)
    (hquiet : Quiet classifier.place line) (hfree : '\n' ∉ line.toList) (number : Nat) :
    classifier.classify number line = (classifier, [.nop]) := by
  obtain ⟨place, lastLiteral⟩ := classifier
  cases hquiet with
  | blank hblank =>
      have htrim : trim line.toList = [] ++ [] := trim_eq_nil hblank
      have hread : Line.Form.blank.read? ([] ++ []) = some .blank := rfl
      cases place with
      | failed => exact absurd rfl hlive
      | outside | inside block =>
          exact classify_of_read? htrim [] ⟨_, rfl⟩ (by simp) hread rfl
  | comment hstart =>
      obtain ⟨rest, hrest⟩ := hstart
      have htrim : trim line.toList = ['#'] ++ trimEnd rest :=
        trim_of_trimStart [] (by decide) hrest.symm
      have hread : Line.Form.comment.read? (['#'] ++ trimEnd rest) = some .comment := by
        have hsingle : '\n' ∉ ['#'] ++ trimEnd rest :=
          htrim ▸ SourceLine.newline_not_mem_trimmed hfree number
        have hkeyword : Line.keyword? "#" (['#'] ++ trimEnd rest) = some (trimEnd rest) :=
          Line.keyword?_append "#" _
        have hbehind : '\n' ∉ trimEnd rest := fun hmem => hsingle (List.mem_append_right _ hmem)
        rw [Line.Form.read?, hkeyword, Option.bind_some,
          if_pos (Line.isSingleLine_of_not_mem hbehind)]
      exact classify_of_read? htrim []
        (Line.Form.row_of_alone (by simp [Line.Form.alone]) "#" rfl) (by simp) hread rfl
  | ignored hstart =>
      obtain ⟨rest, hrest⟩ := hstart
      have htrim : trim line.toList = ['@', '@'] ++ trimEnd rest :=
        trim_of_trimStart ['@'] (by decide) hrest.symm
      have hread : Line.Form.ignored.read? (['@', '@'] ++ trimEnd rest) = some .ignored := rfl
      exact classify_of_read? htrim []
        (Line.Form.row_of_alone (by simp [Line.Form.alone]) "@@" rfl) (by simp) hread rfl

/-- A quiet line moves what follows it one line down. -/
theorem effects_quiet_cons {line : String} (hquiet : Quiet classifier.place line)
    (hfree : '\n' ∉ line.toList) (number : Nat) (later : List String) :
    classifier.effects number (line :: later) = classifier.effects (number + 1) later := by
  by_cases hfailed : classifier.place = .failed
  · rw [effects_of_failed hfailed, effects_of_failed hfailed]
  · simp only [effects, actions, classify_quiet hfailed hquiet hfree number]
    rfl

/-- Away from literal lines nothing changes. -/
theorem effects_insert {before later : List String} {line : String}
    (hquiet : Quiet (after {} 1 before).place line) (hfree : '\n' ∉ line.toList)
    (hapart : ∀ block behind, ¬ BetweenLiterals block behind before later) :
    effects {} 1 (before ++ line :: later) = effects {} 1 (before ++ later) := by
  have hstanding := standing_of_source before
  rw [effects_append, effects_append, effects_quiet_cons hquiet hfree]
  -- Where the numbers matter, the last line before and the first one behind are both literal.
  rcases actions_succ hstanding later with hsame | ⟨hlast, block, text, behind, rest, hplace, rfl,
    htext⟩
  · exact congrArg (effects {} 1 before ++ ·.filter (· ≠ .nop)) hsame
  · rcases List.eq_nil_or_concat' before with rfl | ⟨earlier, first, rfl⟩
    · cases hlast
    · have hlength : 1 + (earlier ++ [first]).length - 1 = 1 + earlier.length := by
        simp [Nat.add_comm]
      rw [hlength] at hlast
      obtain ⟨opened, above, hopened, hfirst⟩ :=
        (lastLiteral_after_iff (standing_enter .outside 1) earlier first).mp hlast
      exact absurd (.intro hopened hfirst htext) (hapart opened behind)

/-- Between two literal lines the second one loses its line break, and nothing else changes. -/
theorem effects_insert_between {before later : List String} {line : String}
    (hquiet : Quiet (after {} 1 before).place line) (hfree : '\n' ∉ line.toList)
    {block : Block} {behind : String} (hbetween : BetweenLiterals block behind before later) :
    ∃ rest,
      effects {} 1 (before ++ later) = effects {} 1 before ++
        block.buffer (String.ofList Softcode.lineBreak ++ Softcode.escape behind) :: rest ∧
      effects {} 1 (before ++ line :: later) = effects {} 1 before ++
        block.buffer (Softcode.escape behind) :: rest := by
  have hstanding := standing_of_source before
  rw [effects_append, effects_append, effects_quiet_cons hquiet hfree]
  obtain @⟨earlier, later, first, second, above, hplace, hfirst, hsecond⟩ := hbetween
  have hlast := (lastLiteral_after_iff (standing_enter .outside 1) earlier first).mpr
    ⟨block, above, hplace, hfirst⟩
  have hinside : (after {} 1 (earlier ++ [first])).place = .inside block := by
    rw [after_append, after, classify_literal hplace hfirst]
    exact hplace
  obtain ⟨rest, hdirect, hmoved⟩ := actions_succ_literal hstanding hinside hsecond later
  have hcode : (after {} 1 (earlier ++ [first])).literalCode
      (1 + (earlier ++ [first]).length) behind =
        String.ofList Softcode.lineBreak ++ Softcode.escape behind := by
    rw [literalCode, if_pos]
    rw [List.length_append, List.length_singleton, ← Nat.add_assoc, Nat.add_sub_cancel]
    exact hlast
  have hbuffer : ∀ text, block.buffer text ≠ .nop := by
    intro text
    cases block <;> simp [Block.buffer]
  refine ⟨rest.filter (· ≠ .nop), ?_, ?_⟩
  · rw [effects.eq_def (after {} 1 (earlier ++ [first])), hdirect, hcode,
      List.filter_cons_of_pos (by simp [hbuffer])]
  · rw [effects.eq_def (after {} 1 (earlier ++ [first])), hmoved,
      List.filter_cons_of_pos (by simp [hbuffer])]

end Classifier

end Gridwright
