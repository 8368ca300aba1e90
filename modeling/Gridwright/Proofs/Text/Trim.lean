import Gridwright.Text.Blank
import Mathlib.Data.List.DropRight

/-!
# Texts without blank characters at their ends

A text is left alone by trimming exactly if it neither starts nor ends with a blank character
(`trim_eq_self_iff`).
-/

namespace Gridwright.Text

theorem isBlank_space : isBlank ' ' = true := by decide

theorem not_isBlank_quote : isBlank '"' = false := by decide

theorem CodeRange.contains_iff {range : CodeRange} {c : Char} :
    range.contains c = true ↔ range.first ≤ c.toNat ∧ c.toNat ≤ range.last := by
  simp [CodeRange.contains]

theorem not_isBlank_of_isDecimalDigit {c : Char} (h : isDecimalDigit c = true) :
    isBlank c = false := by
  have hapart : ∀ blank ∈ blankRanges, ∀ digits ∈ decimalDigitRanges,
      blank.last < digits.first ∨ digits.last < blank.first := by
    decide
  obtain ⟨digits, hdigits, hin⟩ := List.any_eq_true.mp h
  refine List.any_eq_false.mpr ?_
  intro blank hblank hcontains
  have hlow := CodeRange.contains_iff.mp hin
  have hhigh := CodeRange.contains_iff.mp hcontains
  rcases hapart blank hblank digits hdigits with hlt | hlt <;> omega

/-! ### Either end -/

theorem trimStart_cons_of_blank {c : Char} (h : isBlank c = true) (s : List Char) :
    trimStart (c :: s) = trimStart s := by
  rw [trimStart, List.dropWhile_cons, if_pos h, trimStart]

theorem trimStart_cons_of_solid {c : Char} (h : isBlank c = false) (s : List Char) :
    trimStart (c :: s) = c :: s := by
  rw [trimStart, List.dropWhile_cons, if_neg (by simp [h])]

theorem trimEnd_concat_of_blank {c : Char} (h : isBlank c = true) (s : List Char) :
    trimEnd (s ++ [c]) = trimEnd s :=
  List.rdropWhile_concat_pos isBlank s c h

theorem trimStart_eq_self_iff {s : List Char} :
    trimStart s = s ↔ ∀ c ∈ s.head?, isBlank c = false := by
  cases s with
  | nil => simp [trimStart]
  | cons c s =>
      cases hc : isBlank c with
      | false => simp [trimStart_cons_of_solid hc, hc]
      | true =>
          have hle : (trimStart s).length ≤ s.length := (List.dropWhile_sublist _).length_le
          constructor
          · intro h
            rw [trimStart_cons_of_blank hc] at h
            rw [h, List.length_cons] at hle
            omega
          · intro h
            rw [h c rfl] at hc
            cases hc

theorem trimEnd_eq_self_iff {s : List Char} :
    trimEnd s = s ↔ ∀ c ∈ s.getLast?, isBlank c = false := by
  have h := trimStart_eq_self_iff (s := s.reverse)
  rw [List.head?_reverse] at h
  rw [← h, trimEnd, trimStart, List.reverse_eq_iff]

/-! ### Both ends -/

theorem trim_eq_nil {s : List Char} (h : s.all isBlank = true) : trim s = [] := by
  have hend : trimEnd s = [] := by
    rw [trimEnd, List.reverse_eq_nil_iff, List.dropWhile_eq_nil_iff]
    intro c hc
    exact List.all_eq_true.mp h c (List.mem_reverse.mp hc)
  rw [trim, hend]
  rfl

theorem trim_eq_self_iff {s : List Char} :
    trim s = s ↔
      (∀ c ∈ s.head?, isBlank c = false) ∧ ∀ c ∈ s.getLast?, isBlank c = false := by
  rw [← trimStart_eq_self_iff, ← trimEnd_eq_self_iff]
  constructor
  · intro h
    have hstart : (trim s).length ≤ (trimEnd s).length := (List.dropWhile_sublist _).length_le
    have hend : trimEnd s <+: s := List.rdropWhile_prefix isBlank s
    rw [h] at hstart
    have hsame : trimEnd s = s := hend.eq_of_length_le hstart
    rw [trim, hsame] at h
    exact ⟨h, hsame⟩
  · rintro ⟨hstart, hend⟩
    rw [trim, hend, hstart]

theorem trim_trim (s : List Char) : trim (trim s) = trim s := by
  have hend : ∀ c ∈ (trimEnd s).getLast?, isBlank c = false := by
    refine trimEnd_eq_self_iff.mp ?_
    exact List.rdropWhile_idempotent isBlank s
  refine trim_eq_self_iff.mpr ⟨?_, ?_⟩
  · refine trimStart_eq_self_iff.mp ?_
    exact List.dropWhile_idempotent isBlank (trimEnd s)
  · by_cases hempty : trim s = []
    · simp [hempty]
    · have hsplit : trimEnd s = (trimEnd s).takeWhile isBlank ++ trim s :=
        eq_append_trimStart (trimEnd s)
      rwa [hsplit, List.getLast?_append_of_ne_nil _ hempty] at hend

/-- A text in front of another one settles whether the whole starts with a blank character. -/
theorem trim_append_eq_self {front back : List Char} (hfront : front ≠ []) (hback : back ≠ [])
    (hstart : ∀ c ∈ front.head?, isBlank c = false)
    (hend : ∀ c ∈ back.getLast?, isBlank c = false) : trim (front ++ back) = front ++ back := by
  refine trim_eq_self_iff.mpr ⟨?_, ?_⟩
  · rwa [List.head?_append_of_ne_nil front hfront]
  · rwa [List.getLast?_append_of_ne_nil front hback]

theorem trimEnd_append_cons {c : Char} (h : isBlank c = false) (s t : List Char) :
    trimEnd (s ++ c :: t) = s ++ c :: trimEnd t := by
  have hback : (s ++ c :: t).reverse = t.reverse ++ c :: s.reverse := by simp
  simp only [trimEnd, hback, List.dropWhile_append, List.dropWhile_cons, h]
  split
  · rename_i hempty
    simp [List.isEmpty_iff.mp hempty]
  · simp

/-- What stands behind the blank characters at the start is trimmed at its end. -/
theorem trim_of_trimStart {s : List Char} (front : List Char) {c : Char} {rest : List Char}
    (hc : isBlank c = false) (h : trimStart s = front ++ c :: rest) :
    trim s = front ++ c :: trimEnd rest := by
  have hsolid : ∀ d ∈ (front ++ c :: trimEnd rest).head?, isBlank d = false := by
    have hhead : (front ++ c :: trimEnd rest).head? = (trimStart s).head? := by
      rw [h]
      cases front <;> rfl
    rw [hhead]
    exact trimStart_eq_self_iff.mp (List.dropWhile_idempotent isBlank s)
  have hblank : ∀ d ∈ s.takeWhile isBlank, isBlank d = true := fun d hd => List.mem_takeWhile_imp hd
  have hsplit : s = s.takeWhile isBlank ++ front ++ c :: rest := by
    rw [List.append_assoc, ← h]
    exact eq_append_trimStart s
  have hend : trimEnd s = s.takeWhile isBlank ++ front ++ c :: trimEnd rest := by
    rw [← trimEnd_append_cons hc, ← hsplit]
  rw [trim, hend, List.append_assoc, trimStart, List.dropWhile_append_of_pos hblank]
  exact trimStart_eq_self_iff.mpr hsolid

end Gridwright.Text
