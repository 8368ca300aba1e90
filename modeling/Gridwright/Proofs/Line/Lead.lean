import Gridwright.Classifier

/-!
# How lines begin

Most forms of a line begin with a fixed word, so the first characters of a line rule out
nearly all rows of the table before the rest of the line is looked at.  `Form.excludes` decides
this, and `Classifier.response_dropWhile` lets a line pass over the rows in front of the first
one that its beginning allows.
-/

namespace Gridwright

namespace Line

open Gridwright.Text

/-! ### Words -/

/-- Two texts differ, case aside, in a place that both of them have. -/
def clash : List Char → List Char → Bool
  | letter :: word, c :: front => foldCase letter != foldCase c || clash word front
  | _, _ => false

theorem dropWord?_append {same : Char → Char → Bool} (hsame : ∀ c, same c c = true)
    (word rest : List Char) : dropWord? same word (word ++ rest) = some rest := by
  induction word with
  | nil => rfl
  | cons letter word ih => rw [List.cons_append, dropWord?, if_pos (hsame letter), ih]

theorem keyword?_append (word : String) (rest : List Char) :
    keyword? word (word.toList ++ rest) = some rest :=
  dropWord?_append (by simp) word.toList rest

theorem keywordAnyCase?_append (word : String) (rest : List Char) :
    keywordAnyCase? word (word.toList ++ rest) = some rest :=
  dropWord?_append (by simp) word.toList rest

theorem dropWord?_eq_none_of_clash {same : Char → Char → Bool}
    (hsame : ∀ letter c, same letter c = true → foldCase letter = foldCase c)
    {word front : List Char} (h : clash word front = true) (rest : List Char) :
    dropWord? same word (front ++ rest) = none := by
  induction word generalizing front with
  | nil => simp [clash] at h
  | cons letter word ih =>
      cases front with
      | nil => simp [clash] at h
      | cons c front =>
          rw [List.cons_append, dropWord?]
          split
          · rename_i hc
            have hrest : clash word front = true := by
              simpa [clash, hsame letter c hc] using h
            exact ih hrest
          · rfl

theorem keyword?_eq_none_of_clash {word : String} {front : List Char}
    (h : clash word.toList front = true) (rest : List Char) :
    keyword? word (front ++ rest) = none := by
  apply dropWord?_eq_none_of_clash _ h
  intro letter c hc
  rw [beq_iff_eq.mp hc]

theorem keywordAnyCase?_eq_none_of_clash {word : String} {front : List Char}
    (h : clash word.toList front = true) (rest : List Char) :
    keywordAnyCase? word (front ++ rest) = none := by
  apply dropWord?_eq_none_of_clash _ h
  intro letter c hc
  exact beq_iff_eq.mp hc

/-! ### Forms -/

theorem isSingleLine_of_not_mem {s : List Char} (h : '\n' ∉ s) : isSingleLine s = true := by
  refine List.all_eq_true.mpr ?_
  intro c hc
  exact bne_iff_ne.mpr fun heq => h (heq ▸ hc)

/-- The word that every text of a form begins with. -/
def Form.lead? : Form → Option String
  | .blank | .anything => none
  | .ignored => some "@@"
  | .literal => some ">"
  | .comment => some "#"
  | .attrBase => some "ATTR BASE:"
  | .exitAlias => some "ALIAS"
  | .reverse => some "REVERSE"
  | .reference kind slot _ => some (kindWord kind ++ " " ++ slotWord slot ++ ":")
  | .flags kind _ => some (kindWord kind ++ " FLAGS:")
  | .link => some "\""
  | .inRoom => some "IN"
  | .onExit => some "ON"
  | .endIn => some "ENDIN"
  | .endOn => some "ENDON"
  | .describe => some "DESC"

/-- No text that begins in the given way has the form. -/
def Form.excludes (front : List Char) (form : Form) : Bool :=
  match form.lead? with
  | some word => clash word.toList front
  | none => form = .blank && !isBlankText front

theorem link?_eq_none_of_clash {front : List Char} (h : clash ['"'] front = true)
    (rest : List Char) : link? (front ++ rest) = none := by
  cases front with
  | nil => simp [clash] at h
  | cons c front =>
      have hc : c ≠ '"' := by
        rintro rfl
        simp [clash] at h
      rw [List.cons_append, link?, if_neg hc]

theorem Form.read?_eq_none_of_excludes {front : List Char} {form : Form}
    (h : form.excludes front = true) (rest : List Char) : form.read? (front ++ rest) = none := by
  cases form with
  | blank =>
      have hfront : isBlankText front = false := by simpa [excludes, lead?] using h
      have hall : isBlankText (front ++ rest) = false := by
        simp only [isBlankText, List.all_append] at hfront ⊢
        rw [hfront, Bool.false_and]
      simp [read?, hall]
  | anything => simp [excludes, lead?] at h
  | exitAlias | reverse =>
      simp only [read?, keywordPair?, keywordAnyCase?_eq_none_of_clash h rest, Option.bind_none,
        Option.map_none]
  | link => simp only [read?, link?_eq_none_of_clash h rest, Option.map_none]
  | describe =>
      simp only [read?, describe?, keyword?_eq_none_of_clash h rest, Option.bind_none,
        Option.map_none]
  | ignored | literal => simp only [read?, keyword?_eq_none_of_clash h rest, Option.map_none]
  | comment | attrBase | reference | flags | inRoom | onExit | endIn | endOn =>
      simp only [read?, keyword?_eq_none_of_clash h rest, Option.bind_none]

/-- The forms that share their first word with no other form. -/
def Form.alone : List Form :=
  [.ignored, .literal, .comment, .attrBase, .exitAlias, .reverse, .link, .inRoom, .onExit, .endIn,
    .endOn, .describe]

/-- The first row that the word of such a form leaves in play is the form itself. -/
theorem Form.row_of_alone {form : Form} (halone : form ∈ alone) (word : String)
    (hword : form.lead? = some word) :
    [form] <+: table.dropWhile (·.excludes word.toList) := by
  have hrows : ∀ form ∈ alone,
      [form] <+: table.dropWhile (·.excludes (form.lead?.getD "").toList) := by
    decide +kernel
  have hrow := hrows form halone
  rwa [hword] at hrow

end Line

/-! ### Responses -/

namespace Classifier

variable {classifier : Classifier} {line : SourceLine}

theorem response_cons_of_none {form : Line.Form} (h : form.read? line.trimmed = none)
    (table : List Line.Form) :
    classifier.response (form :: table) line = classifier.response table line := by
  simp only [response, List.findSome?_cons, h, Option.bind_none]

theorem response_cons_of_some {form : Line.Form} {reading : Line.Reading}
    {result : Classifier × List Action} (hread : form.read? line.trimmed = some reading)
    (hrespond : classifier.respond line reading = some result) (table : List Line.Form) :
    classifier.response (form :: table) line = some result := by
  simp only [response, List.findSome?_cons, hread, Option.bind_some, hrespond]

theorem response_dropWhile {front rest : List Char} (hline : line.trimmed = front ++ rest)
    (table : List Line.Form) :
    classifier.response (table.dropWhile (·.excludes front)) line =
      classifier.response table line := by
  induction table with
  | nil => rfl
  | cons form table ih =>
      rw [List.dropWhile_cons]
      split
      · rename_i hform
        have hnone : form.read? line.trimmed = none :=
          hline ▸ Line.Form.read?_eq_none_of_excludes hform rest
        rw [ih, response_cons_of_none hnone]
      · rfl

/-- A line is answered by the first row that reads it.  Rows that the beginning of the line
excludes need no look, and those in front of the right one must not read the line. -/
theorem classify_of_read? {classifier : Classifier} {number : Nat} {text : String}
    {front rest : List Char} {form : Line.Form} {reading : Line.Reading}
    {result : Classifier × List Action} (htrim : Text.trim text.toList = front ++ rest)
    (passed : List Line.Form)
    (htable : passed ++ [form] <+: Line.Form.table.dropWhile (·.excludes front))
    (hpassed : ∀ other ∈ passed, other.read? (front ++ rest) = none)
    (hread : form.read? (front ++ rest) = some reading)
    (hrespond : classifier.respond (.of number text) reading = some result) :
    classifier.classify number text = result := by
  obtain ⟨later, htable⟩ := htable
  have hline : (SourceLine.of number text).trimmed = front ++ rest := htrim
  have hskip : classifier.response (passed ++ form :: later) (.of number text) = some result := by
    clear htable
    induction passed with
    | nil => exact response_cons_of_some (hline ▸ hread) hrespond later
    | cons other passed ih =>
        have hnone : other.read? (SourceLine.of number text).trimmed = none :=
          hline ▸ hpassed other List.mem_cons_self
        rw [List.cons_append, response_cons_of_none hnone]
        exact ih fun form hform => hpassed form (List.mem_cons_of_mem other hform)
  rw [classify, ← response_dropWhile hline, ← htable, List.append_assoc, List.singleton_append,
    hskip, Option.getD_some]

end Classifier

end Gridwright
