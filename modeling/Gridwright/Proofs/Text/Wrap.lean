import Gridwright.Proofs.Text.Pieces
import Gridwright.Text.Wrap
import Mathlib.Data.List.Chain
import Mathlib.Data.List.Induction

/-!
# Lines filled with words

What a wrapped text looks like, said without the loop that fills it.  `Cut` is a word in parts of
the width, `Layout` is a list of pieces set in lines: none is lost or moved, every line fits, and
a line ends only where the next piece is too long for it.  Since every part of a word but the last
is as wide as a line, two parts of a word never meet on one line.

The loop keeps the length of the line that it fills in a counter.  `Filled` ties that counter to
the text of the line, and is what one more piece keeps (`Filled.addChunk`); a whole run comes from
it by induction on the pieces.
-/

namespace Gridwright.Text

/-! ### What is asked of the lines -/

/-- A word in parts of a width, the last of which may be shorter. -/
structure Cut (width : Nat) (word : List Char) (parts : List (List Char)) : Prop where
  whole : parts.flatten = word
  full : ∀ part ∈ parts.dropLast, part.length = width
  solid : ∀ part ∈ parts, part ≠ []
  bounded : ∀ part ∈ parts, part.length ≤ width

/-- A part of a word, with the number of the word in its text. -/
structure Piece where
  word : Nat
  chars : List Char
deriving DecidableEq

/-- The parts of words in order, when the first word has the given number. -/
def numbered (first : Nat) (cuts : List (List (List Char))) : List Piece :=
  (cuts.zipIdx first).flatMap fun (parts, word) => parts.map (Piece.mk word)

/-- The text of a line: its pieces with single spaces between. -/
def lineText (line : List Piece) : List Char := join [' '] (line.map (·.chars))

/-- Pieces that are set in lines of a width. -/
structure Layout (width : Nat) (pieces : List Piece) (lines : List (List Piece)) : Prop where
  /-- All pieces are there, in their order. -/
  all : lines.flatten = pieces
  nonempty : ∀ line ∈ lines, lineText line ≠ []
  fits : ∀ line ∈ lines, (lineText line).length ≤ width
  /-- No line has two pieces of one word. -/
  apart : ∀ line ∈ lines, (line.map (·.word)).Nodup
  /-- A line is not ended before it has to be: the first piece of the next one is too long. -/
  greedy : lines.IsChain fun line next =>
    ∀ piece ∈ next.head?, width < (lineText line).length + 1 + piece.chars.length

/-! ### Lengths of joined texts -/

theorem length_join_concat (c : Char) {texts : List (List Char)} (hne : texts ≠ [])
    (last : List Char) :
    (join [c] (texts ++ [last])).length = (join [c] texts).length + 1 + last.length := by
  obtain ⟨first, rest, rfl⟩ := List.exists_cons_of_ne_nil hne
  rw [List.cons_append, join_cons, join_cons, List.flatMap_append]
  simp only [List.flatMap_cons, List.flatMap_nil, List.length_append, List.length_cons,
    List.length_nil]
  omega

theorem join_ne_nil (c : Char) {first : List Char} (hfirst : first ≠ [])
    (rest : List (List Char)) : join [c] (first :: rest) ≠ [] := by
  rw [join_cons]
  exact List.append_ne_nil_of_left_ne_nil hfirst _

/-! ### Words in parts -/

theorem cut_chunks (width : Nat) (word : List Char) :
    Cut (width + 1) word (chunks width word) := by
  fun_induction chunks width word with
  | case1 => exact ⟨rfl, by simp, by simp, by simp⟩
  | case2 c rest ih =>
      have hlength : (c :: rest.take width).length ≤ width + 1 := by
        rw [List.length_cons, List.length_take]
        omega
      refine ⟨?_, ?_, ?_, ?_⟩
      · rw [← chunks_cons]
        exact flatten_chunks width (c :: rest)
      · cases hmore : chunks width (rest.drop width) with
        | nil => simp
        | cons next more =>
            rw [List.dropLast_cons_of_ne_nil (List.cons_ne_nil next more), ← hmore]
            refine List.forall_mem_cons.mpr ⟨?_, ih.full⟩
            -- something is left behind this part, so it is as wide as it can be
            have hleft : rest.drop width ≠ [] := by
              intro hnone
              rw [hnone, chunks_nil] at hmore
              cases hmore
            have hlong := List.length_pos_of_ne_nil hleft
            rw [List.length_drop] at hlong
            rw [List.length_cons, List.length_take]
            omega
      · exact List.forall_mem_cons.mpr ⟨List.cons_ne_nil c _, ih.solid⟩
      · exact List.forall_mem_cons.mpr ⟨hlength, ih.bounded⟩

theorem numbered_cons (first : Nat) (parts : List (List Char)) (cuts : List (List (List Char))) :
    numbered first (parts :: cuts) = parts.map (Piece.mk first) ++ numbered (first + 1) cuts := by
  simp [numbered]

theorem map_chars_numbered (first : Nat) (cuts : List (List (List Char))) :
    (numbered first cuts).map (·.chars) = cuts.flatten := by
  induction cuts generalizing first with
  | nil => rfl
  | cons parts cuts ih =>
      rw [numbered_cons, List.map_append, ih, List.flatten_cons, List.map_map]
      exact congrArg (· ++ cuts.flatten) (List.map_id parts)

theorem le_word_of_mem_numbered {first : Nat} {cuts : List (List (List Char))} {piece : Piece}
    (h : piece ∈ numbered first cuts) : first ≤ piece.word := by
  induction cuts generalizing first with
  | nil => cases h
  | cons parts cuts ih =>
      rw [numbered_cons] at h
      rcases List.mem_append.mp h with hhere | hlater
      · obtain ⟨chars, -, rfl⟩ := List.mem_map.mp hhere
        exact Nat.le_refl first
      · have := ih hlater
        omega

/-- A piece is followed by one of a later word, unless it is as wide as a line. -/
def Follows (width : Nat) (piece next : Piece) : Prop :=
  piece.word < next.word ∨ piece.chars.length = width

theorem follows_parts {width : Nat} {parts : List (List Char)}
    (hfull : ∀ part ∈ parts.dropLast, part.length = width) (word : Nat) :
    (parts.map (Piece.mk word)).IsChain (Follows width) := by
  induction parts with
  | nil => exact List.isChain_nil
  | cons part parts ih =>
      cases parts with
      | nil => exact List.isChain_singleton _
      | cons next parts =>
          rw [List.dropLast_cons_of_ne_nil (List.cons_ne_nil next parts)] at hfull
          rcases List.forall_mem_cons.mp hfull with ⟨hwide, hrest⟩
          apply (ih hrest).cons
          intro piece _
          exact Or.inr hwide

theorem follows_numbered {width : Nat} {words : List (List Char)}
    {cuts : List (List (List Char))} (hcuts : List.Forall₂ (Cut width) words cuts) (first : Nat) :
    (numbered first cuts).IsChain (Follows width) := by
  induction hcuts generalizing first with
  | nil => exact List.isChain_nil
  | @cons word parts words cuts hcut hcuts ih =>
      rw [numbered_cons]
      apply List.IsChain.append (follows_parts hcut.full first) (ih (first + 1))
      intro piece hpiece next hnext
      obtain ⟨chars, -, rfl⟩ := List.mem_map.mp (List.mem_of_getLast? hpiece)
      have hword := le_word_of_mem_numbered (List.mem_of_head? hnext)
      exact Or.inl hword

/-- On a line that fits, every piece is of a later word than the one before it. -/
theorem words_isChain_of_fits {width : Nat} {line : List Piece}
    (hfollows : line.IsChain (Follows width)) (hfits : (lineText line).length ≤ width) :
    (line.map (·.word)).IsChain (· < ·) := by
  induction line with
  | nil => exact List.isChain_nil
  | cons piece rest ih =>
      cases rest with
      | nil => exact List.isChain_singleton _
      | cons next rest =>
          rcases List.isChain_cons_cons.mp hfollows with ⟨hnext, hrest⟩
          have hlength : (lineText (piece :: next :: rest)).length =
              piece.chars.length + 1 + (lineText (next :: rest)).length := by
            simp only [lineText, List.map_cons, join_cons, List.flatMap_cons, List.length_append,
              List.length_cons]
            omega
          refine List.isChain_cons_cons.mpr ⟨?_, ih hrest (by omega)⟩
          rcases hnext with hlater | hwide
          · exact hlater
          · omega

/-! ### Filling -/

/-- The lines that are filled with some parts, the newest first. -/
structure Filled (width : Nat) (parts : List (List Char)) (filled : List Filling) : Prop where
  all : (filled.reverse.map (·.chunks.reverse)).flatten = parts
  /-- The counter of a line is the length of its text. -/
  counted : ∀ line ∈ filled, line.length = (join [' '] line.chunks.reverse).length
  nonempty : ∀ line ∈ filled, line.chunks ≠ []
  fits : ∀ line ∈ filled, line.length ≤ width
  greedy : filled.IsChain fun next line =>
    ∀ chunk ∈ next.chunks.getLast?, width < line.length + 1 + chunk.length

namespace Filled

variable {width : Nat} {parts : List (List Char)} {filled : List Filling} {chunk : List Char}

/-- A line of its own for one more part. -/
theorem newLine (h : Filled width parts filled) (hchunk : chunk.length ≤ width)
    (hlong : ∀ line ∈ filled.head?, width < line.length + 1 + chunk.length) :
    Filled width (parts ++ [chunk]) (⟨chunk.length, [chunk]⟩ :: filled) where
  all := by
    rw [List.reverse_cons, List.map_append, List.flatten_append, h.all]
    rfl
  counted := List.forall_mem_cons.mpr ⟨by simp [join], h.counted⟩
  nonempty := List.forall_mem_cons.mpr ⟨List.cons_ne_nil chunk [], h.nonempty⟩
  fits := List.forall_mem_cons.mpr ⟨hchunk, h.fits⟩
  greedy := by
    apply h.greedy.cons
    intro line hline other hother
    cases hother
    exact hlong line hline

/-- One more part at the end of the newest line. -/
theorem extend {current : Filling} {earlier : List Filling}
    (h : Filled width parts (current :: earlier))
    (hroom : current.length + 1 + chunk.length ≤ width) :
    Filled width (parts ++ [chunk])
      (⟨current.length + 1 + chunk.length, chunk :: current.chunks⟩ :: earlier) := by
  rcases List.forall_mem_cons.mp h.nonempty with ⟨hcurrent, hnonempty⟩
  rcases List.forall_mem_cons.mp h.counted with ⟨hlength, hcounted⟩
  rcases List.isChain_cons.mp h.greedy with ⟨hnext, hearlier⟩
  refine ⟨?_, ?_, ?_, ?_, ?_⟩
  · have hall := h.all
    simp only [List.reverse_cons, List.map_append, List.map_cons, List.map_nil,
      List.flatten_append, List.flatten_cons, List.flatten_nil, List.append_nil] at hall ⊢
    rw [← hall, List.append_assoc]
  · refine List.forall_mem_cons.mpr ⟨?_, hcounted⟩
    have hne : current.chunks.reverse ≠ [] := by simpa using hcurrent
    rw [List.reverse_cons, length_join_concat ' ' hne, ← hlength]
  · exact List.forall_mem_cons.mpr ⟨List.cons_ne_nil chunk current.chunks, hnonempty⟩
  · exact List.forall_mem_cons.mpr ⟨hroom, (List.forall_mem_cons.mp h.fits).2⟩
  · apply hearlier.cons
    intro line hline other hother
    -- the line begins with the same part as before
    obtain ⟨first, rest, hchunks⟩ := List.exists_cons_of_ne_nil hcurrent
    rw [hchunks, List.getLast?_cons_cons, ← hchunks] at hother
    exact hnext line hline other hother

theorem addChunk (h : Filled width parts filled) (hchunk : chunk.length ≤ width) :
    Filled width (parts ++ [chunk]) (addChunk width filled chunk) := by
  unfold Text.addChunk
  cases filled with
  | nil => exact h.newLine hchunk (by rintro line ⟨⟩)
  | cons current earlier =>
      dsimp only
      split
      · rename_i hroom
        exact h.extend hroom
      · rename_i hlong
        apply h.newLine hchunk
        intro line hline
        cases hline
        omega

/-- What has been filled with a list of parts. -/
theorem foldl (hbounded : ∀ part ∈ parts, part.length ≤ width) :
    Filled width parts (parts.foldl (Text.addChunk width) []) := by
  induction parts using List.reverseRecOn with
  | nil => exact ⟨rfl, by simp, by simp, by simp, List.isChain_nil⟩
  | append_singleton parts chunk ih =>
      rw [List.foldl_append]
      apply addChunk
      · exact ih fun part hpart => hbounded part (List.mem_append_left [chunk] hpart)
      · exact hbounded chunk (List.mem_append_right parts List.mem_cons_self)

end Filled

section

variable {width : Nat} {parts : List (List Char)}

theorem flatten_fill (hbounded : ∀ part ∈ parts, part.length ≤ width) :
    (fill width parts).flatten = parts :=
  (Filled.foldl hbounded).all

theorem of_mem_fill (hbounded : ∀ part ∈ parts, part.length ≤ width) {line : List (List Char)}
    (hline : line ∈ fill width parts) : line ≠ [] ∧ (join [' '] line).length ≤ width := by
  have hfilled := Filled.foldl hbounded
  obtain ⟨filling, hmem, rfl⟩ := List.mem_map.mp hline
  rw [List.mem_reverse] at hmem
  refine ⟨by simpa using hfilled.nonempty filling hmem, ?_⟩
  rw [← hfilled.counted filling hmem]
  exact hfilled.fits filling hmem

theorem isChain_fill (hbounded : ∀ part ∈ parts, part.length ≤ width) :
    (fill width parts).IsChain fun line next =>
      ∀ part ∈ next.head?, width < (join [' '] line).length + 1 + part.length := by
  have hfilled := Filled.foldl hbounded
  rw [fill, List.isChain_map, List.isChain_reverse]
  refine hfilled.greedy.imp_of_mem_imp fun next line _ hline hlong part hpart => ?_
  rw [List.head?_reverse] at hpart
  rw [← hfilled.counted line hline]
  exact hlong part hpart

end

/-! ### Layouts -/

/-- Lines of texts are lines of the pieces that have these texts. -/
theorem exists_lines_of_flatten {pieces : List Piece} {texts : List (List (List Char))}
    (h : texts.flatten = pieces.map (·.chars)) :
    ∃ lines : List (List Piece), lines.flatten = pieces ∧
      lines.map (fun line => line.map (·.chars)) = texts := by
  induction texts generalizing pieces with
  | nil =>
      rw [List.flatten_nil, eq_comm, List.map_eq_nil_iff] at h
      exact ⟨[], by rw [h, List.flatten_nil], rfl⟩
  | cons text texts ih =>
      rw [List.flatten_cons, eq_comm] at h
      rcases List.map_eq_append_iff.mp h with ⟨front, back, rfl, hfront, hback⟩
      obtain ⟨lines, hall, htexts⟩ := ih hback.symm
      exact ⟨front :: lines, by rw [List.flatten_cons, hall],
        by rw [List.map_cons, hfront, htexts]⟩

/-- The lines that are filled with the parts of words are a layout of these parts. -/
theorem exists_layout {width : Nat} {words : List (List Char)} {cuts : List (List (List Char))}
    (hcuts : List.Forall₂ (Cut width) words cuts) :
    ∃ lines, Layout width (numbered 0 cuts) lines ∧
      (fill width cuts.flatten).map (join [' ']) = lines.map lineText := by
  have hparts : ∀ part ∈ cuts.flatten, part ≠ [] ∧ part.length ≤ width := by
    intro part hpart
    obtain ⟨parts, hmem, hpart⟩ := List.mem_flatten.mp hpart
    obtain ⟨index, hindex, rfl⟩ := List.getElem_of_mem hmem
    have hcut := hcuts.get (hcuts.length_eq ▸ hindex) hindex
    exact ⟨hcut.solid part hpart, hcut.bounded part hpart⟩
  have hbounded : ∀ part ∈ cuts.flatten, part.length ≤ width := fun part hpart =>
    (hparts part hpart).2
  obtain ⟨lines, hall, htexts⟩ := exists_lines_of_flatten
    ((flatten_fill hbounded).trans (map_chars_numbered 0 cuts).symm)
  have hmem : ∀ line ∈ lines, line.map (·.chars) ∈ fill width cuts.flatten := by
    intro line hline
    rw [← htexts]
    exact List.mem_map_of_mem hline
  refine ⟨lines, ⟨hall, ?_, ?_, ?_, ?_⟩, ?_⟩
  · intro line hline
    obtain ⟨first, rest, hfirst⟩ :=
      List.exists_cons_of_ne_nil (of_mem_fill hbounded (hmem line hline)).1
    have hpart : first ∈ cuts.flatten := by
      rw [← flatten_fill hbounded]
      exact List.mem_flatten.mpr ⟨_, hmem line hline, hfirst ▸ List.mem_cons_self⟩
    rw [lineText, hfirst]
    exact join_ne_nil ' ' (hparts first hpart).1 rest
  · intro line hline
    exact (of_mem_fill hbounded (hmem line hline)).2
  · intro line hline
    have hfits := (of_mem_fill hbounded (hmem line hline)).2
    obtain ⟨before, behind, hpieces⟩ := List.infix_of_mem_flatten hline
    rw [hall] at hpieces
    have hfollows : (before ++ line ++ behind).IsChain (Follows width) :=
      hpieces ▸ follows_numbered hcuts 0
    have hwords := words_isChain_of_fits hfollows.left_of_append.right_of_append hfits
    exact (List.isChain_iff_pairwise.mp hwords).imp Nat.ne_of_lt
  · have hchain := isChain_fill hbounded
    rw [← htexts, List.isChain_map] at hchain
    refine hchain.imp fun line next hlong piece hpiece => ?_
    apply hlong
    rw [List.head?_map, Option.mem_def.mp hpiece]
    rfl
  · rw [← htexts, List.map_map]
    rfl

/-- A text is wrapped into lines behind a mark: the words of the text, cut into parts of the width,
are set in lines of at most that width, which are filled greedily. -/
theorem wrapMarked_eq_layout (mark text : String) (width : Nat) :
    ∃ cuts lines, List.Forall₂ (Cut (max width 1)) (words text.toList) cuts ∧
      Layout (max width 1) (numbered 0 cuts) lines ∧
      wrapMarked mark text width = lines.map fun line => mark ++ String.ofList (lineText line) := by
  have hwidth : width - 1 + 1 = max width 1 := by omega
  have hcuts : List.Forall₂ (Cut (max width 1)) (words text.toList)
      ((words text.toList).map (chunks (width - 1))) := by
    rw [List.forall₂_map_right_iff, List.forall₂_same]
    intro word _
    exact hwidth ▸ cut_chunks (width - 1) word
  obtain ⟨lines, hlayout, hlines⟩ := exists_layout hcuts
  refine ⟨_, lines, hcuts, hlayout, ?_⟩
  rw [wrapMarked, wrap, List.flatMap_def, hlines, List.map_map]
  rfl

end Gridwright.Text
