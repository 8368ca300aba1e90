import Gridwright.Proofs.Classifier.Numbering
import Gridwright.Proofs.Softcode
import Gridwright.Proofs.Text.Pieces

/-!
# Literal lines are printed as they were written

A line of a block that starts with `>` stands for the text behind the sign.  Such a text is
escaped, and a line break is put in front of it if the line right before it was literal too.
The classifier finds that out from the number of the last literal line, which it forgets at the
edges of a block and keeps over all other lines: they leave a gap in the numbers.

So the first line of a run gets no line break and all others get one (`directives_literal`),
and the evaluator prints the texts of the run as its lines.
-/

namespace Gridwright

open Gridwright.Text

/-! ### Texts of literal lines -/

/-- The text that a literal line stands for. -/
def literalChars (text : String) : List Char := (trim text.toList).tail

/-- What literal lines that follow each other add to their block, given whether another literal
line stands right before them. -/
def literalTexts (joins : Bool) : List (List Char) → List String
  | [] => []
  | said :: rest =>
    ((if joins then "%r" else "") ++ Softcode.escape (String.ofList said)) ::
      literalTexts true rest

theorem length_literalTexts (joins : Bool) (said : List (List Char)) :
    (literalTexts joins said).length = said.length := by
  induction said generalizing joins with
  | nil => rfl
  | cons text rest ih => rw [literalTexts, List.length_cons, List.length_cons, ih]

theorem literalText?_of_lead {text : String} (h : ">".toList <+: trim text.toList) :
    literalText? text = some (String.ofList (literalChars text)) := by
  obtain ⟨rest, hrest⟩ := h
  rw [literalText?, literalChars, ← hrest, Line.keyword?_append]
  rfl

namespace Softcode

/-- A text in which a carriage return is a line break. -/
def readReturns (s : List Char) : List Char := s.map fun c => if c = '\r' then '\n' else c

/-- Within a line, every line break is a carriage return by itself. -/
theorem lineFeeds_of_single {s : List Char} (h : '\n' ∉ s) : lineFeeds s = readReturns s := by
  induction s with
  | nil => rfl
  | cons c s ih =>
      rw [List.mem_cons, not_or] at h
      rw [lineFeeds_cons, ih h.2]
      · rfl
      · rintro behind - rfl
        exact h.2 List.mem_cons_self

/-- Behind another literal line, each text is printed behind a line feed. -/
theorem unescapeChars_joined {said : List (List Char)} (hsaid : ∀ text ∈ said, '\n' ∉ text) :
    unescapeChars (String.join (literalTexts true said)).toList =
      said.flatMap fun text => '\n' :: readReturns text := by
  induction said with
  | nil => rfl
  | cons text rest ih =>
      have hrest := ih fun other hother => hsaid other (List.mem_cons_of_mem text hother)
      have htext : (String.join (literalTexts true (text :: rest))).toList =
          '%' :: 'r' :: (escapeChars text ++ (String.join (literalTexts true rest)).toList) := by
        simp [literalTexts, escape]
      rw [htext, unescapeChars, unescapeChars_escapeChars_append,
        lineFeeds_of_single (hsaid text List.mem_cons_self), hrest, List.flatMap_cons,
        List.cons_append]

/-- The texts of a run are printed as its lines. -/
theorem unescape_literalTexts {said : List (List Char)} (hsaid : ∀ text ∈ said, '\n' ∉ text) :
    unescape (String.join (literalTexts false said)) =
      String.ofList (join ['\n'] (said.map readReturns)) := by
  cases said with
  | nil => rfl
  | cons text rest =>
      have hrest := unescapeChars_joined fun other hother =>
        hsaid other (List.mem_cons_of_mem text hother)
      have htext : (String.join (literalTexts false (text :: rest))).toList =
          escapeChars text ++ (String.join (literalTexts true rest)).toList := by
        simp [literalTexts, escape]
      rw [unescape, htext, unescapeChars_escapeChars_append,
        lineFeeds_of_single (hsaid text List.mem_cons_self), hrest, List.map_cons, join_cons,
        List.flatMap_map]

end Softcode

/-! ### Runs of literal lines -/

namespace Classifier

/-- The directives that carry the numbers of some lines are those which the classifier gives for
these lines, at the place where the lines before them have led. -/
theorem filter_directives_between (classifier : Classifier) (file : String) (number : Nat)
    (before run behind : List String) :
    (classifier.directives file number (before ++ run ++ behind)).filter
        (fun directive => number + before.length ≤ directive.location.line ∧
          directive.location.line < number + before.length + run.length) =
      (classifier.after number before).directives file (number + before.length) run := by
  rw [directives_append, directives_append, List.filter_append, List.filter_append]
  have hbefore : ∀ directive ∈ classifier.directives file number before,
      ¬ decide (number + before.length ≤ directive.location.line ∧
        directive.location.line < number + before.length + run.length) = true := by
    intro directive hmem
    have hlt := line_lt_of_mem_directives hmem
    simp only [decide_eq_true_eq]
    omega
  have hwithin : ∀ directive ∈
      (classifier.after number before).directives file (number + before.length) run,
      decide (number + before.length ≤ directive.location.line ∧
        directive.location.line < number + before.length + run.length) = true := by
    intro directive hmem
    have hge := line_ge_of_mem_directives hmem
    have hlt := line_lt_of_mem_directives hmem
    simp only [decide_eq_true_eq]
    omega
  have hbehind : ∀ directive ∈ (classifier.after number (before ++ run)).directives file
      (number + (before ++ run).length) behind,
      ¬ decide (number + before.length ≤ directive.location.line ∧
        directive.location.line < number + before.length + run.length) = true := by
    intro directive hmem
    have hge := line_ge_of_mem_directives hmem
    rw [List.length_append] at hge
    simp only [decide_eq_true_eq]
    omega
  rw [List.filter_eq_nil_iff.mpr hbefore, List.filter_eq_self.mpr hwithin,
    List.filter_eq_nil_iff.mpr hbehind, List.nil_append, List.append_nil]

/-- Inside a block, every line of a run adds its text.  The induction is on the lines: behind the
first one the classifier remembers its number, so all others are joined to the line before. -/
theorem directives_literal {classifier : Classifier} {block : Block}
    (hplace : classifier.place = .inside block) {number : Nat} {joins : Bool}
    (hjoins : classifier.lastLiteral = some (number - 1) ↔ joins = true) {run : List String}
    (hrun : ∀ text ∈ run, ">".toList <+: trim text.toList) (file : String) :
    classifier.directives file number run =
      (literalTexts joins (run.map literalChars)).mapIdx fun index text =>
        ⟨⟨file, number + index⟩, block.buffer text⟩ := by
  induction run generalizing classifier number joins with
  | nil => rfl
  | cons text rest ih =>
      have hcode : classifier.literalCode number (String.ofList (literalChars text)) =
          (if joins then "%r" else "") ++ Softcode.escape (String.ofList (literalChars text)) := by
        simp only [literalCode, hjoins]
        rfl
      -- behind this line the classifier remembers its number
      have hrest : ({ classifier with lastLiteral := some number } : Classifier).directives file
          (number + 1) rest = (literalTexts true (rest.map literalChars)).mapIdx fun index text =>
            ⟨⟨file, number + 1 + index⟩, block.buffer text⟩ := by
        apply ih
        · exact hplace
        · simp
        · exact fun other hother => hrun other (List.mem_cons_of_mem text hother)
      have hline := classify_literal hplace
        (literalText?_of_lead (hrun text List.mem_cons_self)) number
      simp only [directives, hline, hcode, hrest, List.map_cons, literalTexts, List.mapIdx_cons,
        List.map_nil, List.singleton_append, Nat.add_zero, Nat.add_assoc, Nat.add_comm 1]

/-- In front of a run the classifier has not just seen a literal line. -/
theorem lastLiteral_before_run {block : Block} {before : List String}
    (hinside : (after {} 1 before).place = .inside block)
    (hfirst : ∀ text ∈ before.getLast?, ¬ ">".toList <+: trim text.toList) :
    (after {} 1 before).lastLiteral ≠ some before.length := by
  rcases List.eq_nil_or_concat' before with rfl | ⟨earlier, text, rfl⟩
  · cases hinside
  · intro hlast
    have hnumber : (earlier ++ [text]).length = 1 + earlier.length := by
      rw [List.length_append, List.length_singleton, Nat.add_comm]
    rw [hnumber] at hlast
    obtain ⟨_, behind, -, htext⟩ :=
      (lastLiteral_after_iff (standing_enter .outside 1) earlier text).mp hlast
    obtain ⟨rest, hrest, -⟩ := Option.map_eq_some_iff.mp htext
    apply hfirst text (by simp)
    exact ⟨rest, ((Line.dropWord?_eq_some_iff _ _ _).mp hrest).symm⟩

end Classifier

/-- Take consecutive literal lines inside a block, with no literal line right before them.  Each
of them adds one text to the block, and the evaluator prints these texts together as the lines
without their signs, one below the other; a carriage return within a line starts a new line too.
The first text is the escaped line and nothing else. -/
theorem Source.literal_run_read_back {source : Source} {block : Block}
    {before run behind : List String}
    (hlines : (Text.lines source.text.toList).map String.ofList = before ++ run ++ behind)
    (hinside : (Classifier.after {} 1 before).place = .inside block)
    (hliteral : ∀ text ∈ run, ">".toList <+: trim text.toList)
    (hfirst : ∀ text ∈ before.getLast?, ¬ ">".toList <+: trim text.toList) :
    let said := run.map fun text => (trim text.toList).tail
    let adds : String → Action := match block with
      | .inRoom room => .bufferRoom room
      | .onExit room exit => .bufferExit room exit
    ∃ texts : List String,
      source.directives.filter (fun directive => before.length < directive.location.line ∧
          directive.location.line ≤ before.length + run.length) =
        (texts.mapIdx fun index text =>
          ⟨⟨source.name, before.length + 1 + index⟩, adds text⟩) ∧
      texts.length = run.length ∧
      Softcode.unescape (String.join texts) =
        String.ofList (join ['\n'] (said.map fun text =>
          text.map fun c => if c = '\r' then '\n' else c)) ∧
      texts.head? = said.head?.map fun text => Softcode.escape (String.ofList text) := by
  intro said adds
  have hadds : adds = block.buffer := by cases block <;> rfl
  clear_value adds
  subst hadds
  have hsaid : ∀ text ∈ said, '\n' ∉ text := by
    intro text htext hfeed
    obtain ⟨line, hline, rfl⟩ := List.mem_map.mp htext
    have hmem : line ∈ (Text.lines source.text.toList).map String.ofList := by
      rw [hlines]
      simp [hline]
    obtain ⟨chars, hchars, rfl⟩ := List.mem_map.mp hmem
    apply Text.newline_not_mem_of_mem_lines hchars
    have htrimmed := List.mem_of_mem_tail hfeed
    rw [String.toList_ofList] at htrimmed
    exact ((trimStart_sublist _).trans (trimEnd_sublist _)).subset htrimmed
  have hstart := Classifier.lastLiteral_before_run hinside hfirst
  have hjoins : (Classifier.after {} 1 before).lastLiteral = some (1 + before.length - 1) ↔
      false = true := by
    simpa using hstart
  have hdirectives := Classifier.filter_directives_between {} source.name 1 before run behind
  rw [← hlines, ← Source.directives, Classifier.directives_literal hinside hjoins hliteral]
    at hdirectives
  refine ⟨literalTexts false said, ?_, ?_, ?_, ?_⟩
  · rw [Nat.add_comm before.length 1]
    refine (List.filter_congr ?_).trans hdirectives
    intro directive _
    exact decide_eq_decide.mpr (by omega)
  · rw [length_literalTexts, List.length_map]
  · exact Softcode.unescape_literalTexts hsaid
  · cases said with
    | nil => rfl
    | cons text rest => simp [literalTexts]

/-- A description of two lines in a room's code, the second with a carriage return inside. -/
theorem Source.literal_run_read_back_sample :
    let hall : Label := ⟨"\"Hall\""⟩
    let source : Source :=
      ⟨"manor.qb", "IN \"Hall\"\n@desc here=\n>Line [one]\n  > two\rthree\nENDIN\n"⟩
    ∃ first second : String,
      source.directives.filter (fun directive => 2 < directive.location.line ∧
          directive.location.line ≤ 4) =
        [⟨⟨"manor.qb", 3⟩, .bufferRoom hall first⟩, ⟨⟨"manor.qb", 4⟩, .bufferRoom hall second⟩] ∧
      Softcode.unescape (first ++ second) = "Line [one]\n two\nthree" ∧
      first = "Line \\[one\\]" := by
  intro hall source
  have hlines : (Text.lines source.text.toList).map String.ofList =
      ["IN \"Hall\"", "@desc here="] ++ [">Line [one]", "  > two\rthree"] ++ ["ENDIN"] := by
    decide +kernel
  have hinside : (Classifier.after {} 1 ["IN \"Hall\"", "@desc here="]).place =
      .inside (.inRoom hall) := by
    decide +kernel
  obtain ⟨texts, hdirectives, hlength, hprinted, hhead⟩ :=
    literal_run_read_back hlines hinside (by decide) (by decide)
  obtain ⟨first, second, rfl⟩ := List.length_eq_two.mp hlength
  have hfirst : first = "Line \\[one\\]" :=
    (Option.some.inj hhead).trans (by decide +kernel)
  refine ⟨first, second, hdirectives, ?_, hfirst⟩
  have hjoined : String.join [first, second] = first ++ second := by simp
  rw [hjoined] at hprinted
  exact hprinted.trans (by decide +kernel)

end Gridwright
