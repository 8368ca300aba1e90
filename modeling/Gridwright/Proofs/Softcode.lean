import Gridwright.Softcode
import Mathlib.Data.List.Basic

/-!
# Escaped text is read as it was written

The evaluator takes a backslash together with the character behind it and turns `%r` into a
line break.  `unescape` is what it makes of a text that calls no function, and `scan` is how it
gets there: which characters it meets by themselves and which behind a backslash.

Escaping treats the two characters of a line break as one, and nothing else depends on what
stands beside a character.  So once the line breaks of a text are line feeds, escaping it comes
to escaping each character (`escapeChars_eq_flatMap`), and both readings undo that one character
after the other.
-/

namespace Gridwright.Softcode

/-! ### Line breaks -/

/-- A text without the carriage returns that stand before a line feed. -/
def joinBreaks : List Char → List Char
  | [] => []
  | '\r' :: '\n' :: rest => '\n' :: joinBreaks rest
  | c :: rest => c :: joinBreaks rest

/-- A text in which every line break, however it was spelled, is a line feed. -/
def lineFeeds (s : List Char) : List Char :=
  (joinBreaks s).map fun c => if c = '\r' then '\n' else c

theorem lineFeeds_cons {c : Char} {rest : List Char}
    (h : ∀ behind, c = '\r' → rest = '\n' :: behind → False) :
    lineFeeds (c :: rest) = (if c = '\r' then '\n' else c) :: lineFeeds rest := by
  rw [lineFeeds, joinBreaks, List.map_cons]
  · rfl
  · exact h

theorem return_not_mem_lineFeeds (s : List Char) : '\r' ∉ lineFeeds s := by
  intro h
  obtain ⟨c, -, hc⟩ := List.mem_map.mp h
  split at hc
  · cases hc
  · contradiction

/-- Escaping a text is escaping each of its characters, line breaks being one character. -/
theorem escapeChars_eq_flatMap (s : List Char) :
    escapeChars s = (lineFeeds s).flatMap escapeChar := by
  fun_induction escapeChars s with
  | case1 => rfl
  | case2 rest ih =>
      have hbreak : lineFeeds ('\r' :: '\n' :: rest) = '\n' :: lineFeeds rest := rfl
      rw [hbreak, List.flatMap_cons, ← ih]
      rfl
  | case3 c rest hsingle ih =>
      have hsame : escapeChar (if c = '\r' then '\n' else c) = escapeChar c := by
        split
        · rename_i hreturn
          rw [hreturn]
          rfl
        · rfl
      rw [lineFeeds_cons hsingle, List.flatMap_cons, hsame, ← ih]

/-! ### What the evaluator makes of a text -/

/-- A text as the evaluator prints it: a backslash and the character behind it give that
character, and `%r` gives a line feed. -/
def unescapeChars : List Char → List Char
  | [] => []
  | ['\\'] => []
  | '\\' :: c :: rest => c :: unescapeChars rest
  | '%' :: 'r' :: rest => '\n' :: unescapeChars rest
  | '%' :: c :: rest => '%' :: c :: unescapeChars rest
  | c :: rest => c :: unescapeChars rest

def unescape (text : String) : String := String.ofList (unescapeChars text.toList)

theorem unescapeChars_cons {c : Char} (hslash : c ≠ '\\') (hpercent : c ≠ '%')
    (rest : List Char) : unescapeChars (c :: rest) = c :: unescapeChars rest := by
  conv_lhs => unfold unescapeChars
  split <;> simp_all

/-- An escaped character is printed as itself, whatever stands behind it. -/
theorem unescapeChars_escapeChar {c : Char} (hreturn : c ≠ '\r') (rest : List Char) :
    unescapeChars (escapeChar c ++ rest) = c :: unescapeChars rest := by
  unfold escapeChar
  split
  · rename_i hbreak
    rw [hbreak.resolve_right hreturn]
    rfl
  · split
    · rfl
    · rename_i hplain
      apply unescapeChars_cons
      · rintro rfl
        exact hplain (by decide)
      · rintro rfl
        exact hplain (by decide)

theorem unescapeChars_flatMap_append {s : List Char} (hreturn : '\r' ∉ s) (rest : List Char) :
    unescapeChars (s.flatMap escapeChar ++ rest) = s ++ unescapeChars rest := by
  induction s with
  | nil => rfl
  | cons c s ih =>
      obtain ⟨hne, hrest⟩ := not_or.mp (mt List.mem_cons.mpr hreturn)
      rw [List.flatMap_cons, List.append_assoc, unescapeChars_escapeChar (Ne.symm hne), ih hrest,
        List.cons_append]

theorem unescapeChars_escapeChars_append (s rest : List Char) :
    unescapeChars (escapeChars s ++ rest) = lineFeeds s ++ unescapeChars rest := by
  rw [escapeChars_eq_flatMap, unescapeChars_flatMap_append (return_not_mem_lineFeeds s)]

theorem unescapeChars_escapeChars (s : List Char) :
    unescapeChars (escapeChars s) = lineFeeds s := by
  have hwhole := unescapeChars_escapeChars_append s []
  rwa [List.append_nil, unescapeChars, List.append_nil] at hwhole

example : unescapeChars (escapeChars ['%', 'r', '\r', '\r', '\n', '\\']) =
    ['%', 'r', '\n', '\n', '\\'] := by decide

/-! ### What the evaluator acts upon -/

/-- How the evaluator meets a character. -/
inductive Token where
  /-- By itself. -/
  | plain (c : Char)
  /-- Behind a backslash, which it takes away. -/
  | escaped (c : Char)
  /-- A backslash at the end of the text, with nothing behind it. -/
  | lone
deriving DecidableEq

/-- The characters of a text as the evaluator meets them, from left to right. -/
def scan : List Char → List Token
  | [] => []
  | ['\\'] => [.lone]
  | '\\' :: c :: rest => .escaped c :: scan rest
  | c :: rest => .plain c :: scan rest

/-- How the evaluator meets an escaped character. -/
def tokens (c : Char) : List Token :=
  if c = '\n' ∨ c = '\r' then [.plain '%', .plain 'r']
  else if c ∈ specialChars then [.escaped c]
  else [.plain c]

theorem scan_cons {c : Char} (h : c ≠ '\\') (rest : List Char) :
    scan (c :: rest) = .plain c :: scan rest := by
  conv_lhs => unfold scan
  split <;> simp_all

theorem scan_of_no_backslash {s : List Char} (h : '\\' ∉ s) : scan s = s.map .plain := by
  induction s with
  | nil => rfl
  | cons c rest ih =>
      obtain ⟨hne, hrest⟩ := not_or.mp (mt List.mem_cons.mpr h)
      rw [scan_cons (Ne.symm hne), ih hrest, List.map_cons]

/-- A text that ends with no lone backslash takes nothing away from what stands behind it. -/
theorem scan_append {s : List Char} (h : Token.lone ∉ scan s) (t : List Char) :
    scan (s ++ t) = scan s ++ scan t := by
  fun_induction scan s with
  | case1 => rfl
  | case2 => exact absurd List.mem_cons_self h
  | case3 c rest ih =>
      obtain ⟨-, hrest⟩ := not_or.mp (mt List.mem_cons.mpr h)
      exact congrArg (Token.escaped c :: ·) (ih hrest)
  | case4 c rest hlone hpair ih =>
      obtain ⟨-, hrest⟩ := not_or.mp (mt List.mem_cons.mpr h)
      have hplain : c ≠ '\\' := by
        rintro rfl
        rcases rest with _ | ⟨d, rest⟩
        · exact hlone rfl rfl
        · exact hpair d rest rfl rfl
      rw [List.cons_append, scan_cons hplain, ih hrest, List.cons_append]

theorem scan_escapeChar (c : Char) (rest : List Char) :
    scan (escapeChar c ++ rest) = tokens c ++ scan rest := by
  unfold escapeChar tokens
  split
  · rfl
  · split
    · rfl
    · rename_i hplain
      apply scan_cons
      rintro rfl
      exact hplain (by decide)

theorem scan_escapeChars (s : List Char) :
    scan (escapeChars s) = (lineFeeds s).flatMap tokens := by
  rw [escapeChars_eq_flatMap]
  induction lineFeeds s with
  | nil => rfl
  | cons c rest ih => rw [List.flatMap_cons, scan_escapeChar, ih, List.flatMap_cons]

/-- A special character that the evaluator meets by itself belongs to a line break. -/
theorem eq_percent_of_split {s : List Char} {before after : List Token} {c : Char}
    (h : s.flatMap tokens = before ++ .plain c :: after) (hspecial : c ∈ specialChars) :
    c = '%' ∧ ∃ rest, after = .plain 'r' :: rest := by
  induction s generalizing before with
  | nil => simp at h
  | cons d s ih =>
      rw [List.flatMap_cons] at h
      unfold tokens at h
      split at h
      · rcases before with _ | ⟨first, before⟩
        · obtain ⟨hpercent, hafter⟩ := List.cons.inj h
          cases hpercent
          exact ⟨rfl, _, hafter.symm⟩
        · obtain ⟨-, htail⟩ := List.cons.inj h
          rcases before with _ | ⟨second, before⟩
          · obtain ⟨hr, -⟩ := List.cons.inj htail
            cases hr
            exact absurd hspecial (by decide)
          · exact ih (List.cons.inj htail).2
      · split at h
        · rcases before with _ | ⟨first, before⟩
          · cases (List.cons.inj h).1
          · exact ih (List.cons.inj h).2
        · rename_i hplain
          rcases before with _ | ⟨first, before⟩
          · cases (List.cons.inj h).1
            exact absurd hspecial hplain
          · exact ih (List.cons.inj h).2

theorem count_percent_tokens {c : Char} (hreturn : c ≠ '\r') :
    (tokens c).count (.plain '%') = if c = '\n' then 1 else 0 := by
  unfold tokens
  by_cases hbreak : c = '\n'
  · simp [hbreak]
  · by_cases hspecial : c ∈ specialChars
    · simp [hbreak, hreturn, hspecial]
    · have hpercent : c ≠ '%' := by
        rintro rfl
        exact hspecial (by decide)
      simp [hbreak, hreturn, hspecial, hpercent]

theorem count_percent_flatMap {s : List Char} (hreturn : '\r' ∉ s) :
    (s.flatMap tokens).count (.plain '%') = s.count '\n' := by
  induction s with
  | nil => rfl
  | cons c rest ih =>
      obtain ⟨hne, hrest⟩ := not_or.mp (mt List.mem_cons.mpr hreturn)
      rw [List.flatMap_cons, List.count_append, count_percent_tokens (Ne.symm hne), ih hrest,
        List.count_cons, Nat.add_comm]
      simp

theorem lone_not_mem_tokens (c : Char) : Token.lone ∉ tokens c := by
  unfold tokens
  split
  · simp
  · split <;> simp

theorem not_isBreak_of_mem_escapeChar {c d : Char} (h : d ∈ escapeChar c) :
    d ≠ '\n' ∧ d ≠ '\r' := by
  unfold escapeChar at h
  split at h
  · rcases List.mem_cons.mp h with rfl | hlast
    · decide
    · rw [List.mem_singleton.mp hlast]
      decide
  · rename_i hbreak
    have hself : c ≠ '\n' ∧ c ≠ '\r' := not_or.mp hbreak
    split at h
    · rcases List.mem_cons.mp h with rfl | hlast
      · decide
      · rwa [List.mem_singleton.mp hlast]
    · rwa [List.mem_singleton.mp h]

/-! ### Escaped text -/

/-- Every text is printed as it was written, with line feeds for its line breaks.  Its escaped
form stands on one line, and the evaluator acts upon nothing in it but the `%r` of each line
break: every other special character stands behind a backslash, and every backslash has a
character behind it. -/
theorem escape_read_back (text : String) :
    let written := (escape text).toList
    unescape (escape text) = String.ofList (lineFeeds text.toList) ∧
    ('\n' ∉ written ∧ '\r' ∉ written) ∧
    Token.lone ∉ scan written ∧
    (∀ before c after, scan written = before ++ .plain c :: after → c ∈ specialChars →
      c = '%' ∧ ∃ rest, after = .plain 'r' :: rest) ∧
    (scan written).count (.plain '%') = (lineFeeds text.toList).count '\n' := by
  intro written
  have hwritten : written = escapeChars text.toList := String.toList_ofList
  have hbreaks : ∀ c ∈ written, c ≠ '\n' ∧ c ≠ '\r' := by
    intro c hc
    rw [hwritten, escapeChars_eq_flatMap] at hc
    obtain ⟨d, -, hmem⟩ := List.mem_flatMap.mp hc
    exact not_isBreak_of_mem_escapeChar hmem
  have hprinted : unescapeChars written = lineFeeds text.toList := by
    rw [hwritten, unescapeChars_escapeChars]
  have hscan : scan written = (lineFeeds text.toList).flatMap tokens := by
    rw [hwritten, scan_escapeChars]
  refine ⟨congrArg String.ofList hprinted, ⟨?_, ?_⟩, ?_, ?_, ?_⟩
  · exact fun h => (hbreaks _ h).1 rfl
  · exact fun h => (hbreaks _ h).2 rfl
  · rw [hscan]
    intro h
    obtain ⟨c, -, hmem⟩ := List.mem_flatMap.mp h
    exact lone_not_mem_tokens c hmem
  · intro before c after hsplit hspecial
    rw [hscan] at hsplit
    exact eq_percent_of_split hsplit hspecial
  · rw [hscan, count_percent_flatMap (return_not_mem_lineFeeds _)]

end Gridwright.Softcode
