import Gridwright.ExitName
import Gridwright.Proofs.Text.Pieces

/-!
# Letters that a name marks

The author of a name puts the letters of its alias in brackets, `<N>orth`.  `MarkedName` is such a
name as data: plain text with groups of letters in brackets between.

The alias is found word by word, and from a word all is taken that stands between its first and
its last bracket.  So a name yields just the letters that it marks if no word has two groups, and
brackets among the letters otherwise (`full_marked_iff`).
-/

namespace Gridwright.ExitName

open Gridwright.Text

/-! ### Marked names -/

/-- A text without brackets and semicolons. -/
structure PlainText where
  chars : List Char
  plain : ∀ c ∈ chars, c ≠ '<' ∧ c ≠ '>' ∧ c ≠ ';'

/-- Letters in brackets, with the plain text that follows them. -/
structure Mark where
  letters : List Char
  nonempty : letters ≠ []
  solid : ∀ c ∈ letters, isBlank c = false ∧ c ≠ '<' ∧ c ≠ '>' ∧ c ≠ ';'
  behind : PlainText

/-- A name that marks at least one group of letters. -/
structure MarkedName where
  front : PlainText
  first : Mark
  more : List Mark

def Mark.chars (mark : Mark) : List Char := '<' :: (mark.letters ++ '>' :: mark.behind.chars)

/-- The word with the letters ends before anything else is marked. -/
def Mark.Ends (mark : Mark) : Prop := ∃ c ∈ mark.behind.chars, isBlank c = true

/-- No word has two groups of letters. -/
def Apart (marks : List Mark) : Prop := ∀ mark ∈ marks.dropLast, mark.Ends

namespace MarkedName

def marks (name : MarkedName) : List Mark := name.first :: name.more

def chars (name : MarkedName) : List Char := name.front.chars ++ name.marks.flatMap (·.chars)

def text (name : MarkedName) : String := String.ofList name.chars

/-- All letters that the name marks. -/
def letters (name : MarkedName) : List Char := name.marks.flatMap (·.letters)

/-- The name as it is declared, with a semicolon and aliases behind it or without. -/
def declared (name : MarkedName) : Option String → String
  | none => name.text
  | some given => name.text ++ ";" ++ given

end MarkedName

/-- The aliases that are given behind the first semicolon, those that are empty left out. -/
def givenAliases (given : Option String) : List (List Char) :=
  nonemptyPieces (· == ';') (given.getD "").toList

/-! ### Words -/

theorem dropWhile_append_of_not_mem {c : Char} {before : List Char} (h : c ∉ before)
    (rest : List Char) : (before ++ c :: rest).dropWhile (· != c) = c :: rest := by
  have hbefore : ∀ d ∈ before, (d != c) = true := by
    intro d hd
    rw [bne_iff_ne]
    rintro rfl
    exact h hd
  rw [List.dropWhile_append_of_pos hbefore, List.dropWhile_cons_of_neg (by simp)]

/-- What is taken from a word is all between its first opening and its last closing bracket. -/
theorem bracketed?_of_split {body after : List Char} (hafter : '>' ∉ after) (hbody : body ≠ []) :
    bracketed? ('<' :: (body ++ '>' :: after)) = some body := by
  have hclose : (body ++ '>' :: after).reverse.dropWhile (· != '>') = '>' :: body.reverse := by
    rw [List.reverse_append, List.reverse_cons, List.append_assoc, List.singleton_append]
    exact dropWhile_append_of_not_mem (by simpa using hafter) body.reverse
  have hopen : ('<' :: (body ++ '>' :: after)).dropWhile (· != '<') =
      '<' :: (body ++ '>' :: after) := dropWhile_append_of_not_mem List.not_mem_nil _
  simp only [bracketed?, hopen, hclose, List.isEmpty_reverse, List.reverse_reverse]
  rw [if_neg (by simpa using hbody)]

theorem bracketedParts_eq (s : List Char) :
    bracketedParts s = (pieces isBlank s).filterMap bracketed? := by
  rw [bracketedParts, words, nonemptyPieces, List.filterMap_filter]
  congr 1
  funext piece
  cases piece <;> rfl

theorem bracketedParts_append_blank {c : Char} (hc : isBlank c = true) (s t : List Char) :
    bracketedParts (s ++ c :: t) = bracketedParts s ++ bracketedParts t := by
  rw [bracketedParts, words, nonemptyPieces_append_separator hc, List.filterMap_append]
  rfl

theorem bracketedParts_of_solid {word : List Char} (h : ∀ c ∈ word, isBlank c = false) :
    bracketedParts word = (bracketed? word).toList := by
  rw [bracketedParts_eq, pieces_of_no_separator h]
  cases hword : bracketed? word <;> simp [hword]

/-- Text in front of the first opening bracket does not matter. -/
theorem bracketedParts_append_of_no_bracket {front : List Char} (hfront : '<' ∉ front)
    (rest : List Char) : bracketedParts (front ++ rest) = bracketedParts rest := by
  induction front with
  | nil => rfl
  | cons c front ih =>
      simp only [List.mem_cons, not_or] at hfront
      rw [← ih hfront.2, List.cons_append, bracketedParts_eq, bracketedParts_eq, pieces_cons]
      split
      · rfl
      · obtain ⟨piece, others, hpieces⟩ :=
          List.exists_cons_of_ne_nil (pieces_ne_nil isBlank (front ++ rest))
        have hskip : bracketed? (c :: piece) = bracketed? piece := by
          have hc : (c != '<') = true := by simpa using fun h => hfront.1 h.symm
          simp only [bracketed?, List.dropWhile_cons, hc, if_true]
        rw [hpieces, extendFirst, List.filterMap_cons, List.filterMap_cons, hskip]

theorem solid_word {body tail : List Char} (hbody : ∀ c ∈ body, isBlank c = false)
    (htail : ∀ c ∈ tail, isBlank c = false) :
    ∀ c ∈ '<' :: (body ++ '>' :: tail), isBlank c = false := by
  intro c hc
  simp only [List.mem_cons, List.mem_append] at hc
  rcases hc with rfl | hmem | rfl | hmem
  · decide
  · exact hbody c hmem
  · decide
  · exact htail c hmem

theorem solid_of_no_blank {s : List Char} (h : ¬ ∃ c ∈ s, isBlank c = true) :
    ∀ c ∈ s, isBlank c = false := by
  intro c hc
  exact Bool.eq_false_iff.mpr fun hblank => h ⟨c, hc, hblank⟩

theorem exists_first_blank {s : List Char} (h : ∃ c ∈ s, isBlank c = true) :
    ∃ word c rest, s = word ++ c :: rest ∧ (∀ d ∈ word, isBlank d = false) ∧
      isBlank c = true := by
  obtain ⟨c, hfound⟩ := Option.isSome_iff_exists.mp (List.find?_isSome.mpr h)
  obtain ⟨hc, word, rest, hsplit, hword⟩ := List.find?_eq_some_iff_append.mp hfound
  exact ⟨word, c, rest, hsplit, by simpa using hword, hc⟩

/-- A word takes in all that stands between its first bracket and any closing bracket that
follows in it. -/
theorem mem_bracketedParts_of_solid {body : List Char} (hbody : ∀ c ∈ body, isBlank c = false)
    {c : Char} (hc : c ∈ body) (rest : List Char) :
    c ∈ (bracketedParts ('<' :: (body ++ '>' :: rest))).flatten := by
  have hword : ∀ tail : List Char, (∀ d ∈ tail, isBlank d = false) →
      c ∈ (bracketedParts ('<' :: (body ++ '>' :: tail))).flatten := by
    intro tail htail
    -- the last closing bracket, seen from the end of the word
    have hclose : '>' ∈ ('>' :: tail).reverse := by simp
    obtain ⟨after, between, hsplit, hafter⟩ := List.eq_append_cons_of_mem hclose
    have hlast : '>' :: tail = between.reverse ++ '>' :: after.reverse := by
      simpa using congrArg List.reverse hsplit
    have htaken : bracketed? ('<' :: (body ++ '>' :: tail)) = some (body ++ between.reverse) := by
      rw [hlast, ← List.append_assoc]
      exact bracketed?_of_split (by simpa using hafter) (by simp [List.ne_nil_of_mem hc])
    rw [bracketedParts_of_solid (solid_word hbody htail), htaken]
    simp [hc]
  by_cases hblank : ∃ d ∈ rest, isBlank d = true
  · obtain ⟨tail, d, more, rfl, htail, hd⟩ := exists_first_blank hblank
    have htext : '<' :: (body ++ '>' :: (tail ++ d :: more)) =
        '<' :: (body ++ '>' :: tail) ++ d :: more := by
      simp
    rw [htext, bracketedParts_append_blank hd, List.flatten_append]
    exact List.mem_append_left _ (hword tail htail)
  · exact hword rest (solid_of_no_blank hblank)

/-! ### Marks -/

theorem PlainText.not_mem_open (text : PlainText) : '<' ∉ text.chars :=
  fun h => (text.plain '<' h).1 rfl

theorem PlainText.not_mem_close (text : PlainText) : '>' ∉ text.chars :=
  fun h => (text.plain '>' h).2.1 rfl

namespace Mark

variable {mark : Mark}

theorem solid_letters (mark : Mark) : ∀ c ∈ mark.letters, isBlank c = false :=
  fun c hc => (mark.solid c hc).1

/-- A word that has the letters and no further bracket yields the letters. -/
theorem bracketedParts_word (mark : Mark) {tail : List Char} (htail : '>' ∉ tail)
    (hsolid : ∀ c ∈ tail, isBlank c = false) :
    bracketedParts ('<' :: (mark.letters ++ '>' :: tail)) = [mark.letters] := by
  rw [bracketedParts_of_solid (solid_word mark.solid_letters hsolid),
    bracketed?_of_split htail mark.nonempty]
  rfl

theorem bracketedParts_append_of_ends (hends : mark.Ends) (rest : List Char) :
    bracketedParts (mark.chars ++ rest) = mark.letters :: bracketedParts rest := by
  obtain ⟨tail, c, more, hbehind, htail, hblank⟩ := exists_first_blank hends
  have hmore : '<' ∉ more := fun h => mark.behind.not_mem_open (by simp [hbehind, h])
  have hclose : '>' ∉ tail := fun h => mark.behind.not_mem_close (by simp [hbehind, h])
  have htext : mark.chars ++ rest =
      '<' :: (mark.letters ++ '>' :: tail) ++ c :: (more ++ rest) := by
    simp [chars, hbehind]
  rw [htext, bracketedParts_append_blank hblank, mark.bracketedParts_word hclose htail,
    bracketedParts_append_of_no_bracket hmore, List.singleton_append]

theorem bracketedParts_chars (mark : Mark) : bracketedParts mark.chars = [mark.letters] := by
  by_cases hends : mark.Ends
  · have hparts := bracketedParts_append_of_ends hends []
    rwa [List.append_nil] at hparts
  · exact mark.bracketedParts_word mark.behind.not_mem_close (solid_of_no_blank hends)

/-- A word with two groups of letters yields a bracket. -/
theorem close_mem_bracketedParts (hends : ¬ mark.Ends) (next : Mark) (rest : List Char) :
    '>' ∈ (bracketedParts (mark.chars ++ (next.chars ++ rest))).flatten := by
  have htext : mark.chars ++ (next.chars ++ rest) =
      '<' :: ((mark.letters ++ '>' :: (mark.behind.chars ++ '<' :: next.letters)) ++
        '>' :: (next.behind.chars ++ rest)) := by
    simp [chars]
  rw [htext]
  refine mem_bracketedParts_of_solid ?_ (by simp) _
  intro c hc
  simp only [List.mem_append, List.mem_cons] at hc
  rcases hc with hletter | rfl | hplain | rfl | hletter
  · exact mark.solid_letters c hletter
  · decide
  · exact solid_of_no_blank hends c hplain
  · decide
  · exact next.solid_letters c hletter

end Mark

theorem apart_cons_cons {mark next : Mark} {rest : List Mark} :
    Apart (mark :: next :: rest) ↔ mark.Ends ∧ Apart (next :: rest) := by
  simp [Apart]

theorem bracketedParts_of_apart {marks : List Mark} (h : Apart marks) :
    bracketedParts (marks.flatMap (·.chars)) = marks.map (·.letters) := by
  induction marks with
  | nil => rfl
  | cons mark rest ih =>
      cases rest with
      | nil => simpa using mark.bracketedParts_chars
      | cons next rest =>
          obtain ⟨hends, hrest⟩ := apart_cons_cons.mp h
          rw [List.flatMap_cons, Mark.bracketedParts_append_of_ends hends, ih hrest,
            List.map_cons (l := next :: rest)]

/-- Where a word has two groups, a bracket gets among the letters. -/
theorem close_mem_of_not_apart {marks : List Mark} (h : ¬ Apart marks) :
    '>' ∈ (bracketedParts (marks.flatMap (·.chars))).flatten := by
  induction marks with
  | nil => exact (h (by simp [Apart])).elim
  | cons mark rest ih =>
      cases rest with
      | nil => exact (h (by simp [Apart])).elim
      | cons next rest =>
          by_cases hends : mark.Ends
          · have hrest : ¬ Apart (next :: rest) := fun hrest =>
              h (apart_cons_cons.mpr ⟨hends, hrest⟩)
            rw [List.flatMap_cons, Mark.bracketedParts_append_of_ends hends, List.flatten_cons]
            exact List.mem_append_right _ (ih hrest)
          · rw [List.flatMap_cons, List.flatMap_cons]
            exact Mark.close_mem_bracketedParts hends next _

/-! ### Names -/

namespace MarkedName

theorem close_not_mem_letters (name : MarkedName) : '>' ∉ name.letters := by
  intro h
  obtain ⟨mark, -, hmem⟩ := List.mem_flatMap.mp h
  exact (mark.solid '>' hmem).2.2.1 rfl

theorem letters_ne_nil (name : MarkedName) : name.letters ≠ [] := by
  simp [letters, marks, name.first.nonempty]

theorem bracketedParts_chars (name : MarkedName) :
    bracketedParts name.chars = bracketedParts (name.marks.flatMap (·.chars)) :=
  bracketedParts_append_of_no_bracket name.front.not_mem_open _

theorem flatten_bracketedParts_iff (name : MarkedName) :
    (bracketedParts name.chars).flatten = name.letters ↔ Apart name.marks := by
  rw [bracketedParts_chars]
  constructor
  · intro hletters
    refine Classical.byContradiction fun hapart => name.close_not_mem_letters ?_
    rw [← hletters]
    exact close_mem_of_not_apart hapart
  · intro hapart
    rw [bracketedParts_of_apart hapart, letters, List.flatMap_def]

theorem flatten_bracketedParts_ne_nil (name : MarkedName) :
    (bracketedParts name.chars).flatten ≠ [] := by
  by_cases hapart : Apart name.marks
  · rw [name.flatten_bracketedParts_iff.mpr hapart]
    exact name.letters_ne_nil
  · rw [bracketedParts_chars]
    exact List.ne_nil_of_mem (close_mem_of_not_apart hapart)

theorem semicolon_not_mem_chars (name : MarkedName) : ';' ∉ name.chars := by
  have hplain : ∀ text : PlainText, ';' ∉ text.chars := fun text h => (text.plain ';' h).2.2 rfl
  have hmark : ∀ mark : Mark, ';' ∉ mark.chars := by
    intro mark h
    simp only [Mark.chars, List.mem_cons, List.mem_append] at h
    rcases h with h | h | h | h
    · exact absurd h (by decide)
    · exact (mark.solid ';' h).2.2.2 rfl
    · exact absurd h (by decide)
    · exact hplain mark.behind h
  intro h
  rcases List.mem_append.mp h with h | h
  · exact hplain name.front h
  · obtain ⟨mark, -, hmem⟩ := List.mem_flatMap.mp h
    exact hmark mark hmem

theorem pieces_declared (name : MarkedName) (given : Option String) :
    ∃ aliases, pieces (· == ';') (name.declared given).toList = name.chars :: aliases ∧
      aliases.filter (!·.isEmpty) = givenAliases given := by
  have hname : pieces (· == ';') name.chars = [name.chars] := by
    refine pieces_of_no_separator fun c hc => beq_false_of_ne ?_
    rintro rfl
    exact name.semicolon_not_mem_chars hc
  cases given with
  | none => exact ⟨[], by simpa [declared, text] using hname, rfl⟩
  | some given =>
      refine ⟨pieces (· == ';') given.toList, ?_, rfl⟩
      have htext : (name.declared (some given)).toList = name.chars ++ ';' :: given.toList := by
        simp [declared, text]
      rw [htext, pieces_append_separator (by rfl), hname, List.singleton_append]

theorem full_declared (name : MarkedName) (auto : Bool) (given : Option String) :
    full { detectBrackets := true, autoBrackets := auto } (name.declared given) =
      String.ofList (join [';']
        (name.chars :: (bracketedParts name.chars).flatten :: givenAliases given)) := by
  obtain ⟨aliases, hpieces, haliases⟩ := name.pieces_declared given
  have hname : name.chars ≠ [] := by simp [chars, marks, Mark.chars]
  have hderived := name.flatten_bracketedParts_ne_nil
  have hparts : bracketedParts name.chars ≠ [] := by
    intro hnone
    rw [hnone] at hderived
    exact hderived rfl
  have hdisplay : display { detectBrackets := true, autoBrackets := auto } name.chars =
      (name.chars, (bracketedParts name.chars).flatten) := by
    simp [display, hparts]
  rw [full, parts, hpieces]
  simp only [hdisplay]
  rw [List.filter_cons_of_pos (by simpa using hname),
    List.filter_cons_of_pos (by simpa using hderived), haliases]

end MarkedName

/-- An exit whose name marks letters is opened under that name, those letters and the given
aliases if no word of the name has two groups, and only then. -/
theorem full_marked_iff (auto : Bool) (name : MarkedName) (given : Option String) :
    full { detectBrackets := true, autoBrackets := auto } (name.declared given) =
        String.ofList (join [';'] (name.chars :: name.letters :: givenAliases given)) ↔
      Apart name.marks := by
  rw [name.full_declared, String.ofList_inj, join_cons, join_cons, List.append_cancel_left_eq,
    List.flatMap_cons, List.flatMap_cons, List.append_cancel_right_eq, List.cons.injEq,
    name.flatten_bracketedParts_iff, eq_self_iff_true, true_and]

/-- Two groups in one word: what stands between them gets into the alias. -/
theorem two_groups_in_one_word :
    ∃ name : MarkedName, name.text = "<N>orth<W>est" ∧ String.ofList name.letters = "NW" ∧
      full {} name.text = "<N>orth<W>est;N>orth<W" ∧
      full {} (name.declared none) ≠
        String.ofList (join [';'] (name.chars :: name.letters :: givenAliases none)) := by
  refine ⟨⟨⟨[], by simp⟩, ⟨['N'], by simp, by simp; decide, ⟨"orth".toList, by simp⟩⟩,
    [⟨['W'], by simp, by simp; decide, ⟨"est".toList, by simp⟩⟩]⟩, ?_⟩
  exact ⟨by decide +kernel, by decide +kernel, by decide +kernel, by decide +kernel⟩

end Gridwright.ExitName
