import Gridwright.Proofs.Line.Lead
import Gridwright.Proofs.Line.Written
import Gridwright.Proofs.Text.Trim

/-!
# Labels are read as they are written

A written label that closes its line is found there whole (`closingLabel?_written`).
-/

namespace Gridwright

open Gridwright.Text Gridwright.Line

/-! ### Written labels as texts -/

theorem QuotedText.toList_written (quoted : QuotedText) :
    quoted.written.toList = '"' :: (quoted.chars ++ ['"']) := by
  simp [written, text]

theorem QuotedText.quotedLabel_eq (quoted : QuotedText) :
    quotedLabel quoted.chars = quoted.label := by
  rw [quotedLabel, label, ← String.ofList_toList (s := quoted.written), toList_written]
  rfl

namespace WrittenLabel

/-- The text behind the opening quote. -/
def inner (label : WrittenLabel) : List Char := label.name.chars ++ '"' :: label.suffix

theorem toList_written (label : WrittenLabel) : label.written.toList = '"' :: label.inner := by
  simp [written, inner, QuotedText.toList_written]

theorem mk_eq_label (label : WrittenLabel) :
    ⟨String.ofList ('"' :: label.inner)⟩ = label.label := by
  rw [← toList_written, String.ofList_toList, WrittenLabel.label]

theorem startsSuffix_of_head (label : WrittenLabel) {c : Char} (h : c ∈ label.suffix.head?) :
    startsSuffix c = true := by
  have hsolid := (label.solid c (List.mem_of_head? h)).1
  simpa [startsSuffix, hsolid] using label.noArrow c h

theorem solid_last (label : WrittenLabel) {c : Char} (h : c ∈ label.inner.getLast?) :
    isBlank c = false := by
  rw [inner, List.getLast?_append_of_ne_nil _ (List.cons_ne_nil _ _)] at h
  rcases List.mem_cons.mp (List.mem_of_getLast? h) with rfl | hsuffix
  · exact not_isBlank_quote
  · exact (label.solid c hsuffix).1

theorem trimEnd_written (label : WrittenLabel) :
    trimEnd ('"' :: label.inner) = '"' :: label.inner := by
  refine trimEnd_eq_self_iff.mpr fun c hc => label.solid_last ?_
  rwa [List.getLast?_cons_of_ne_nil (by simp [inner])] at hc

end WrittenLabel

namespace Line

/-! ### Behind the last label of a line -/

namespace ClosingLabel

theorem solid_ahead {s : List Char} (hsolid : ∀ c ∈ s, isBlank c = false) :
    (ahead s).solid = true := by
  induction s with
  | nil => rfl
  | cons c s ih =>
      have hrest := ih fun d hd => hsolid d (List.mem_cons_of_mem c hd)
      simp [Ahead.step, hsolid c List.mem_cons_self, hrest]

theorem suffix_ahead (label : WrittenLabel) : (ahead label.suffix).suffix = true := by
  cases hsuffix : label.suffix with
  | nil => rfl
  | cons c s =>
      have hstarts := label.startsSuffix_of_head (c := c) (by rw [hsuffix]; rfl)
      have hsolid : (ahead s).solid = true := by
        refine solid_ahead fun d hd => (label.solid d ?_).1
        rw [hsuffix]
        exact List.mem_cons_of_mem c hd
      simp [Ahead.step, hstarts, hsolid]

theorem closes_ahead_of_no_quote {s : List Char} (h : '"' ∉ s) : (ahead s).closes = false := by
  induction s with
  | nil => rfl
  | cons c s ih =>
      rw [List.mem_cons, not_or] at h
      simp [Ahead.step, ih h.2, Ne.symm h.1]

theorem closes_ahead_inner (label : WrittenLabel) : (ahead label.inner).closes = true := by
  have hbody : ∀ chars : List Char, (∀ c ∈ chars, c ≠ '"' ∧ c ≠ '\n') →
      (ahead (chars ++ '"' :: label.suffix)).closes = true := by
    intro chars hchars
    induction chars with
    | nil => simp [Ahead.step, suffix_ahead]
    | cons c chars ih =>
        have hrest := ih fun d hd => hchars d (List.mem_cons_of_mem c hd)
        simp [Ahead.step, hrest, (hchars c List.mem_cons_self).2]
  exact hbody label.name.chars label.name.plain

end ClosingLabel

theorem closingLabel?_written (label : WrittenLabel) :
    closingLabel? ('"' :: label.inner) = some ('"' :: label.inner) := by
  rw [closingLabel?, if_pos ⟨rfl, ClosingLabel.closes_ahead_inner label⟩, label.trimEnd_written]

end Line

end Gridwright
