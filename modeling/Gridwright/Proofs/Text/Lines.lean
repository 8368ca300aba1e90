import Gridwright.Proofs.Text.Pieces
import Gridwright.Proofs.Text.Trim

/-!
# Lines of texts that are put together

What the lines of a text are when the text is put together from others: by an end of line
between two texts, or by joining many.
-/

namespace Gridwright.Text

theorem lines_nil : lines [] = [] := rfl

/-- The lines behind an end of line are those of the text behind it. -/
theorem lines_append_newline (s t : List Char) :
    lines (s ++ '\n' :: t) = (pieces (· == '\n') s).map dropReturn ++ lines t := by
  have hcut : pieces (· == '\n') (s ++ '\n' :: t) =
      pieces (· == '\n') s ++ pieces (· == '\n') t := pieces_append_separator rfl s t
  have hne := pieces_ne_nil (· == '\n') t
  simp only [lines, hcut, List.dropLast_append_of_ne_nil hne,
    List.getLast?_append_of_ne_nil _ hne, List.map_append, List.append_assoc]

/-- Nothing but an end of line keeps the last line of a text and the first line of the next
one apart. -/
theorem lines_append {s : List Char} (hs : s = [] ∨ s.getLast? = some '\n') (t : List Char) :
    lines (s ++ t) = lines s ++ lines t := by
  rcases hs with rfl | hlast
  · rw [List.nil_append, lines_nil, List.nil_append]
  · obtain ⟨front, rfl⟩ := List.getLast?_eq_some_iff.mp hlast
    rw [List.append_assoc, List.singleton_append, lines_append_newline, lines_append_newline,
      lines_nil, List.append_nil]

/-- The lines of texts that are joined by line feeds: the texts themselves, but for carriage
returns at their ends and an empty text at the very end. -/
theorem lines_intercalate {texts : List (List Char)} (hfree : ∀ text ∈ texts, '\n' ∉ text)
    (hne : texts ≠ []) :
    lines (['\n'].intercalate texts) =
      texts.dropLast.map dropReturn ++ texts.getLast?.toList.filter (!·.isEmpty) := by
  have hcut : pieces (· == '\n') (['\n'].intercalate texts) = texts :=
    pieces_join hfree hne
  simp only [lines, hcut]

/-- A carriage return at the end of a line is among its blank characters. -/
theorem trimEnd_dropReturn (s : List Char) : trimEnd (dropReturn s) = trimEnd s := by
  unfold dropReturn
  split
  · rename_i hlast
    obtain ⟨front, rfl⟩ := List.getLast?_eq_some_iff.mp hlast
    rw [List.dropLast_concat, trimEnd_concat_of_blank (by decide)]
  · rfl

end Gridwright.Text
