import Gridwright.Text.Pieces

/-!
# Pieces of texts that are put together

Cutting a text into pieces is what the core library calls `List.splitOnP`, so its lemmas say
what the pieces of a text are when the text is put together from others: by a separator between
two texts, or by joining many.
-/

namespace Gridwright.Text

variable {isSeparator : Char → Bool}

theorem pieces_eq_splitOnP (isSeparator : Char → Bool) (s : List Char) :
    pieces isSeparator s = s.splitOnP isSeparator := by
  induction s with
  | nil => rfl
  | cons c s ih =>
      rw [pieces_cons, List.splitOnP_cons_eq_if_modifyHead, ih]
      split
      · rfl
      · cases hcut : s.splitOnP isSeparator with
        | nil => exact absurd hcut (List.splitOnP_ne_nil isSeparator s)
        | cons piece rest => rfl

theorem pieces_of_no_separator {s : List Char} (h : ∀ c ∈ s, isSeparator c = false) :
    pieces isSeparator s = [s] := by
  rw [pieces_eq_splitOnP]
  exact List.splitOnP_eq_singleton h

theorem pieces_of_not_mem {c : Char} {s : List Char} (h : c ∉ s) :
    pieces (· == c) s = [s] := by
  refine pieces_of_no_separator fun d hd => beq_false_of_ne ?_
  rintro rfl
  exact h hd

theorem pieces_append_separator {c : Char} (hc : isSeparator c = true) (s t : List Char) :
    pieces isSeparator (s ++ c :: t) = pieces isSeparator s ++ pieces isSeparator t := by
  simp only [pieces_eq_splitOnP]
  exact List.splitOnP_append_cons s t hc

theorem nonemptyPieces_append_separator {c : Char} (hc : isSeparator c = true)
    (s t : List Char) :
    nonemptyPieces isSeparator (s ++ c :: t) =
      nonemptyPieces isSeparator s ++ nonemptyPieces isSeparator t := by
  simp only [nonemptyPieces, pieces_append_separator hc, List.filter_append]

/-- Texts without a separator are the pieces of the text that joins them. -/
theorem pieces_join {c : Char} {texts : List (List Char)} (hfree : ∀ text ∈ texts, c ∉ text)
    (hne : texts ≠ []) : pieces (· == c) (join [c] texts) = texts := by
  rw [pieces_eq_splitOnP]
  exact List.splitOn_intercalate c hfree hne

theorem join_cons (c : Char) (first : List Char) (rest : List (List Char)) :
    join [c] (first :: rest) = first ++ rest.flatMap (c :: ·) := by
  induction rest generalizing first with
  | nil => simp [join]
  | cons next rest ih =>
      have hnext : join [c] (first :: next :: rest) = first ++ c :: join [c] (next :: rest) := by
        simp [join]
      rw [hnext, ih next, List.flatMap_cons, List.cons_append]

theorem mem_join {c d : Char} {texts : List (List Char)} (h : c ∈ join [d] texts) :
    c = d ∨ ∃ text ∈ texts, c ∈ text := by
  cases texts with
  | nil => cases h
  | cons first rest =>
      rw [join_cons, List.mem_append, List.mem_flatMap] at h
      rcases h with hfirst | ⟨text, htext, hmem⟩
      · exact Or.inr ⟨first, List.mem_cons_self, hfirst⟩
      · rcases List.mem_cons.mp hmem with rfl | hc
        · exact Or.inl rfl
        · exact Or.inr ⟨text, List.mem_cons_of_mem first htext, hc⟩

theorem exists_pieces_eq_cons (isSeparator : Char → Bool) (s : List Char) :
    ∃ rest, pieces isSeparator s = s.takeWhile (fun c => !isSeparator c) :: rest := by
  induction s with
  | nil => exact ⟨[], rfl⟩
  | cons c s ih =>
      obtain ⟨rest, hpieces⟩ := ih
      rw [pieces_cons]
      split
      · rename_i hc
        exact ⟨pieces isSeparator s, by rw [List.takeWhile_cons_of_neg (by simp [hc])]⟩
      · rename_i hc
        exact ⟨rest, by rw [hpieces, List.takeWhile_cons_of_pos (by simp [hc]), extendFirst]⟩

theorem infix_of_mem_pieces {s piece : List Char} (hpiece : piece ∈ pieces isSeparator s) :
    piece <:+: s := by
  induction s generalizing piece with
  | nil =>
      rw [pieces_nil, List.mem_singleton] at hpiece
      subst hpiece
      exact List.infix_rfl
  | cons c s ih =>
      have hbehind : s <:+: c :: s := (List.suffix_cons c s).isInfix
      rw [pieces_cons] at hpiece
      split at hpiece
      · rcases List.mem_cons.mp hpiece with rfl | hlater
        · exact List.nil_prefix.isInfix
        · exact (ih hlater).trans hbehind
      · obtain ⟨rest, hpieces⟩ := exists_pieces_eq_cons isSeparator s
        rw [hpieces, extendFirst] at hpiece
        rcases List.mem_cons.mp hpiece with rfl | hlater
        · have hfront : s.takeWhile (!isSeparator ·) <+: s := List.takeWhile_prefix _
          exact ((List.prefix_cons_inj c).mpr hfront).isInfix
        · apply (ih _).trans hbehind
          rw [hpieces]
          exact List.mem_cons_of_mem _ hlater

theorem infix_of_mem_words {s word : List Char} (hword : word ∈ words s) : word <:+: s :=
  infix_of_mem_pieces (List.mem_filter.mp hword).1

theorem ne_nil_of_mem_words {s word : List Char} (hword : word ∈ words s) : word ≠ [] := by
  have hsolid := (List.mem_filter.mp hword).2
  rintro rfl
  cases hsolid

theorem not_separator_of_mem_pieces {s piece : List Char} {c : Char}
    (hpiece : piece ∈ pieces isSeparator s) (hc : c ∈ piece) : isSeparator c = false := by
  induction s generalizing piece with
  | nil =>
      rw [pieces_nil, List.mem_singleton] at hpiece
      subst hpiece
      cases hc
  | cons d s ih =>
      rw [pieces_cons] at hpiece
      split at hpiece
      · rcases List.mem_cons.mp hpiece with rfl | hrest
        · cases hc
        · exact ih hrest hc
      · rename_i hd
        obtain ⟨first, rest, hp⟩ := List.exists_cons_of_ne_nil (pieces_ne_nil isSeparator s)
        rw [hp] at hpiece ih
        rcases List.mem_cons.mp hpiece with rfl | hrest
        · rcases List.mem_cons.mp hc with rfl | hfirst
          · exact Bool.eq_false_iff.mpr hd
          · exact ih List.mem_cons_self hfirst
        · exact ih (List.mem_cons_of_mem first hrest) hc

end Gridwright.Text
