import Gridwright.Proofs.Classifier.Stream
import Gridwright.Proofs.Line.Lead

/-!
# What line numbers decide

How a line is read depends on the place it stands at and on nothing else that the classifier
remembers.  The number of a line is looked at in one case only: a literal line right behind
another one starts with a line break.  So two classifiers at the same place go on alike when
either both or neither of them have just seen a literal line (`Alike`), whatever the numbers
are, and with other numbers at most the next line can come out differently.
-/

namespace Gridwright

open Gridwright.Text

/-! ### Readings at a place -/

/-- Whether a reading has a meaning at a place. -/
def Place.knows : Place → Line.Reading → Bool
  | .outside, .ignored | .outside, .literal _ => false
  | .outside, _ => true
  | .inside _, _ => true
  | .failed, _ => false

/-- How a line is read at a place. -/
def Place.reading? (place : Place) (text : String) : Option Line.Reading :=
  Line.Form.table.findSome? fun form => (form.read? (trim text.toList)).filter place.knows

/-- The text behind the sign that a literal line starts with. -/
def literalText? (text : String) : Option String :=
  (Line.keyword? ">" (trim text.toList)).map String.ofList

theorem Line.Form.literal_of_read? {form : Form} {s : List Char} {behind : String}
    (h : form.read? s = some (.literal behind)) :
    (keyword? ">" s).map String.ofList = some behind := by
  cases form with
  | literal =>
      obtain ⟨rest, hrest, hbehind⟩ := Option.map_eq_some_iff.mp h
      cases hbehind
      rw [hrest, Option.map_some]
  | _ => simp [read?, Option.bind_eq_some_iff] at h

namespace Classifier

variable {classifier other : Classifier} {number otherNumber : Nat}

theorem isSome_respond (classifier : Classifier) (line : SourceLine) (reading : Line.Reading) :
    (classifier.respond line reading).isSome = classifier.place.knows reading := by
  unfold respond
  cases classifier.place with
  | outside => cases reading <;> rfl
  | failed => cases reading <;> rfl
  | inside block =>
      cases reading with
      | endIn | endOn => cases block <;> rfl
      | _ => rfl

theorem response_eq (classifier : Classifier) (number : Nat) (text : String)
    (table : List Line.Form) :
    classifier.response table (.of number text) =
      (table.findSome? fun form =>
        (form.read? (trim text.toList)).filter classifier.place.knows).bind
          (classifier.respond (.of number text)) := by
  induction table with
  | nil => rfl
  | cons form table ih =>
      rw [List.findSome?_cons]
      cases hread : form.read? (trim text.toList) with
      | none =>
          have hnone : form.read? (SourceLine.of number text).trimmed = none := hread
          rw [response_cons_of_none hnone, ih, Option.filter_none]
      | some reading =>
          have hrow : form.read? (SourceLine.of number text).trimmed = some reading := hread
          have hsome := isSome_respond classifier (.of number text) reading
          cases hrespond : classifier.respond (.of number text) reading with
          | some result =>
              rw [hrespond] at hsome
              rw [response_cons_of_some hrow hrespond, Option.filter_some_pos hsome.symm,
                Option.bind_some, hrespond]
          | none =>
              rw [hrespond] at hsome
              rw [Option.filter_some_neg hsome.symm, ← ih, response, List.findSome?_cons]
              simp only [hrow, Option.bind_some, hrespond, response]

theorem classify_eq (classifier : Classifier) (number : Nat) (text : String) :
    classifier.classify number text =
      ((classifier.place.reading? text).bind (classifier.respond (.of number text))).getD
        (classifier, []) := by
  rw [classify, response_eq, Place.reading?]

/-- Two classifiers at one place give the same response to a line that is not read as a literal
one: both stay as they are, or both are put to another place. -/
theorem respond_renumber (hplace : other.place = classifier.place) {reading : Line.Reading}
    (hreading : ∀ behind, reading ≠ .literal behind) (number otherNumber : Nat) (text : String) :
    (classifier.respond (.of number text) reading = none ∧
      other.respond (.of otherNumber text) reading = none) ∨
    ∃ actions,
      (classifier.respond (.of number text) reading = some (classifier, actions) ∧
        other.respond (.of otherNumber text) reading = some (other, actions)) ∨
      ∃ place, classifier.respond (.of number text) reading = some (enter place, actions) ∧
        other.respond (.of otherNumber text) reading = some (enter place, actions) := by
  unfold respond
  rw [hplace]
  cases classifier.place with
  | failed => exact .inl ⟨rfl, rfl⟩
  | outside =>
      cases reading with
      | ignored | literal => exact .inl ⟨rfl, rfl⟩
      | inRoom | onExit | endIn | endOn | anything => exact .inr ⟨_, .inr ⟨_, rfl, rfl⟩⟩
      | blank | comment | attrBase | exitAlias | reverse | reference | flags | link | describe =>
          exact .inr ⟨_, .inl ⟨rfl, rfl⟩⟩
  | inside block =>
      cases reading with
      | literal behind => exact absurd rfl (hreading behind)
      | endIn | endOn => cases block <;> exact .inr ⟨_, .inr ⟨_, rfl, rfl⟩⟩
      | blank | ignored | comment | anything | attrBase | exitAlias | reverse | reference | flags
      | link | inRoom | onExit | describe => exact .inr ⟨_, .inl ⟨rfl, rfl⟩⟩

theorem classify_renumber (hplace : other.place = classifier.place) {text : String}
    (htext : ∀ block, classifier.place = .inside block → literalText? text = none)
    (number otherNumber : Nat) :
    ∃ actions,
      (classifier.classify number text = (classifier, actions) ∧
        other.classify otherNumber text = (other, actions)) ∨
      ∃ place, classifier.classify number text = (enter place, actions) ∧
        other.classify otherNumber text = (enter place, actions) := by
  simp only [classify_eq, hplace]
  cases hfound : classifier.place.reading? text with
  | none => exact ⟨[], .inl ⟨rfl, rfl⟩⟩
  | some reading =>
      have hreading : ∀ behind, reading ≠ .literal behind := by
        rintro behind rfl
        obtain ⟨form, -, hform⟩ := List.exists_of_findSome?_eq_some hfound
        obtain ⟨hread, hknows⟩ := Option.filter_eq_some_iff.mp hform
        cases hat : classifier.place with
        | inside block =>
            have hnone := htext block hat
            rw [literalText?, Line.Form.literal_of_read? hread] at hnone
            cases hnone
        | outside | failed =>
            rw [hat] at hknows
            cases hknows
      simp only [Option.bind_some]
      rcases respond_renumber hplace hreading number otherNumber text with
        ⟨hnone, hother⟩ | ⟨actions, ⟨hsame, hother⟩ | ⟨place, henter, hother⟩⟩
      · exact ⟨[], .inl (by simp [hnone, hother])⟩
      · exact ⟨actions, .inl (by simp [hsame, hother])⟩
      · exact ⟨actions, .inr ⟨place, by simp [henter, hother]⟩⟩

/-- A literal line inside a block. -/
theorem classify_literal {block : Block} (hplace : classifier.place = .inside block)
    {text behind : String} (htext : literalText? text = some behind) (number : Nat) :
    classifier.classify number text =
      ({ classifier with lastLiteral := some number },
        [block.buffer (classifier.literalCode number behind)]) := by
  obtain ⟨rest, hrest, rfl⟩ := Option.map_eq_some_iff.mp htext
  have htrim : trim text.toList = ['>'] ++ rest := (Line.dropWord?_eq_some_iff _ _ _).mp hrest
  have hread : Line.Form.literal.read? (['>'] ++ rest) = some (.literal (String.ofList rest)) := by
    rw [← htrim, Line.Form.read?, hrest, Option.map_some]
  obtain ⟨place, lastLiteral⟩ := classifier
  cases hplace
  exact classify_of_read? htrim [] (Line.Form.row_of_alone (by simp [Line.Form.alone]) ">" rfl)
    (by simp) hread rfl

theorem literal_or_not (classifier : Classifier) (text : String) :
    (∃ block behind, classifier.place = .inside block ∧ literalText? text = some behind) ∨
      ∀ block, classifier.place = .inside block → literalText? text = none := by
  cases htext : literalText? text with
  | none => exact .inr fun _ _ => rfl
  | some behind =>
      cases hplace : classifier.place with
      | inside block => exact .inl ⟨block, behind, rfl, rfl⟩
      | outside | failed => exact .inr fun _ hinside => by cases hinside

/-- A line leaves the classifier as it is, puts it to another place, or is literal. -/
theorem classify_cases (classifier : Classifier) (number : Nat) (text : String) :
    (classifier.classify number text).1 = classifier ∨
      (∃ place, (classifier.classify number text).1 = enter place) ∨
      ∃ block behind, classifier.place = .inside block ∧ literalText? text = some behind ∧
        (classifier.classify number text).1 = { classifier with lastLiteral := some number } := by
  rcases literal_or_not classifier text with ⟨block, behind, hplace, htext⟩ | htext
  · exact .inr (.inr ⟨block, behind, hplace, htext, by rw [classify_literal hplace htext]⟩)
  · obtain ⟨actions, ⟨hsame, -⟩ | ⟨place, henter, -⟩⟩ := classify_renumber rfl htext number number
    · exact .inl (by rw [hsame])
    · exact .inr (.inl ⟨place, by rw [henter]⟩)

/-! ### The last literal line -/

/-- The literal line that the classifier remembers stands in front of the line with the given
number and inside the present block. -/
def Standing (classifier : Classifier) (number : Nat) : Prop :=
  ∀ literal, classifier.lastLiteral = some literal →
    literal < number ∧ ∃ block, classifier.place = .inside block

theorem standing_enter (place : Place) (number : Nat) : Standing (enter place) number := by
  intro literal h
  cases h

/-- Outside of blocks no literal line is remembered. -/
theorem Standing.eq_enter (h : classifier.Standing number)
    (hplace : ∀ block, classifier.place ≠ .inside block) :
    classifier = enter classifier.place := by
  obtain ⟨place, lastLiteral⟩ := classifier
  cases lastLiteral with
  | none => rfl
  | some literal =>
      obtain ⟨-, block, hinside⟩ := h literal rfl
      exact absurd hinside (hplace block)

theorem standing_classify (h : classifier.Standing number) (text : String) :
    (classifier.classify number text).1.Standing (number + 1) := by
  intro literal hliteral
  rcases classify_cases classifier number text with hsame | ⟨place, henter⟩ |
    ⟨block, behind, hplace, -, hnext⟩
  · rw [hsame] at hliteral ⊢
    obtain ⟨hlt, hinside⟩ := h literal hliteral
    exact ⟨Nat.lt_succ_of_lt hlt, hinside⟩
  · rw [henter] at hliteral
    cases hliteral
  · rw [hnext] at hliteral ⊢
    cases hliteral
    exact ⟨Nat.lt_succ_self number, block, hplace⟩

theorem standing_after (h : classifier.Standing number) (lines : List String) :
    (classifier.after number lines).Standing (number + lines.length) := by
  induction lines generalizing classifier number with
  | nil => exact h
  | cons text rest ih =>
      have hrest := ih (standing_classify h text)
      rwa [Nat.add_right_comm] at hrest

theorem standing_of_source (lines : List String) :
    (after {} 1 lines).Standing (1 + lines.length) :=
  standing_after (standing_enter .outside 1) lines

/-! ### The actions of lines -/

/-- The actions of some lines, the first of which has the given number. -/
def actions (classifier : Classifier) (number : Nat) : List String → List Action
  | [] => []
  | text :: rest =>
    (classifier.classify number text).2 ++
      actions (classifier.classify number text).1 (number + 1) rest

theorem map_action_directives (classifier : Classifier) (file : String) (number : Nat)
    (lines : List String) :
    (classifier.directives file number lines).map (·.action) =
      classifier.actions number lines := by
  induction lines generalizing classifier number with
  | nil => rfl
  | cons text rest ih =>
      simp only [directives, actions, List.map_append, List.map_map, ih]
      congr 1
      exact List.map_id _

theorem actions_append (classifier : Classifier) (number : Nat) (first second : List String) :
    classifier.actions number (first ++ second) =
      classifier.actions number first ++
        (classifier.after number first).actions (number + first.length) second := by
  induction first generalizing classifier number with
  | nil => rfl
  | cons text rest ih =>
      rw [List.cons_append, actions, actions, ih, List.append_assoc, List.length_cons,
        Nat.add_comm rest.length 1, ← Nat.add_assoc]
      rfl

/-- The actions that do something. -/
def effects (classifier : Classifier) (number : Nat) (lines : List String) : List Action :=
  (classifier.actions number lines).filter (· ≠ .nop)

theorem effects_append (classifier : Classifier) (number : Nat) (first second : List String) :
    classifier.effects number (first ++ second) =
      classifier.effects number first ++
        (classifier.after number first).effects (number + first.length) second := by
  rw [effects, actions_append, List.filter_append]
  rfl

theorem effects_of_failed (hfailed : classifier.place = .failed) (number : Nat)
    (lines : List String) : classifier.effects number lines = [] := by
  have hnone := (behind_failed classifier hfailed "" number lines).1
  rw [effects, ← map_action_directives classifier "", hnone]
  rfl

theorem after_append (classifier : Classifier) (number : Nat) (first second : List String) :
    classifier.after number (first ++ second) =
      (classifier.after number first).after (number + first.length) second := by
  induction first generalizing classifier number with
  | nil => rfl
  | cons text rest ih =>
      rw [List.cons_append, after, ih, List.length_cons, Nat.add_comm rest.length 1,
        ← Nat.add_assoc]
      rfl

theorem directives_append (classifier : Classifier) (file : String) (number : Nat)
    (first second : List String) :
    classifier.directives file number (first ++ second) =
      classifier.directives file number first ++
        (classifier.after number first).directives file (number + first.length) second := by
  induction first generalizing classifier number with
  | nil => rfl
  | cons text rest ih =>
      simp only [List.cons_append, directives, after, ih, List.append_assoc, List.length_cons,
        Nat.add_comm rest.length 1, ← Nat.add_assoc]

/-! ### Going on alike -/

/-- Two classifiers at the same place, of which both or none have seen a literal line right in
front of the line with the given number. -/
structure Alike (classifier : Classifier) (number : Nat) (other : Classifier)
    (otherNumber : Nat) : Prop where
  place : other.place = classifier.place
  joins : classifier.lastLiteral = some (number - 1) ↔ other.lastLiteral = some (otherNumber - 1)

/-- Behind a line that is not literal no literal line is right in front. -/
theorem Standing.lastLiteral_ne (h : classifier.Standing number) :
    classifier.lastLiteral ≠ some number := by
  intro hlast
  exact Nat.lt_irrefl number (h number hlast).1

theorem Alike.behind (hplace : other.place = classifier.place) (h : classifier.Standing number)
    (hother : other.Standing otherNumber) :
    Alike classifier (number + 1) other (otherNumber + 1) where
  place := hplace
  joins := by simp [h.lastLiteral_ne, hother.lastLiteral_ne]

theorem Alike.enter (place : Place) (number otherNumber : Nat) :
    Alike (.enter place) number (.enter place) otherNumber where
  place := rfl
  joins := by simp [Classifier.enter]

/-- One line: classifiers that go on alike give the same actions and still go on alike. -/
theorem Alike.classify (h : Alike classifier number other otherNumber)
    (hstanding : classifier.Standing number) (hother : other.Standing otherNumber)
    (text : String) :
    (other.classify otherNumber text).2 = (classifier.classify number text).2 ∧
      Alike (classifier.classify number text).1 (number + 1)
        (other.classify otherNumber text).1 (otherNumber + 1) := by
  rcases literal_or_not classifier text with ⟨block, behind, hplace, htext⟩ | htext
  · rw [classify_literal hplace htext, classify_literal (h.place.trans hplace) htext]
    exact ⟨by simp only [literalCode, h.joins], h.place, by simp⟩
  · obtain ⟨actions, ⟨hsame, hsame'⟩ | ⟨place, henter, henter'⟩⟩ :=
      classify_renumber h.place htext number otherNumber
    · rw [hsame, hsame']
      exact ⟨rfl, .behind h.place hstanding hother⟩
    · rw [henter, henter']
      exact ⟨rfl, .enter place _ _⟩

/-- All lines, by induction over them. -/
theorem Alike.actions (h : Alike classifier number other otherNumber)
    (hstanding : classifier.Standing number) (hother : other.Standing otherNumber)
    (lines : List String) :
    other.actions otherNumber lines = classifier.actions number lines := by
  induction lines generalizing classifier number other otherNumber with
  | nil => rfl
  | cons text rest ih =>
      obtain ⟨hactions, hnext⟩ := h.classify hstanding hother text
      rw [Classifier.actions, Classifier.actions, hactions,
        ih hnext (standing_classify hstanding text) (standing_classify hother text)]

/-! ### One line further down -/

theorem Standing.succ (h : classifier.Standing number) : classifier.Standing (number + 1) := by
  intro literal hliteral
  obtain ⟨hlt, hinside⟩ := h literal hliteral
  exact ⟨Nat.lt_succ_of_lt hlt, hinside⟩

/-- With other numbers a literal line may come out differently, and all that follows is the
same. -/
theorem actions_succ_literal (h : classifier.Standing number) {block : Block}
    (hplace : classifier.place = .inside block) {text behind : String}
    (htext : literalText? text = some behind) (rest : List String) :
    ∃ later,
      classifier.actions number (text :: rest) =
        block.buffer (classifier.literalCode number behind) :: later ∧
      classifier.actions (number + 1) (text :: rest) =
        block.buffer (Softcode.escape behind) :: later := by
  have hnext := standing_classify h text
  have hnext' := standing_classify h.succ text
  have hcode : classifier.literalCode (number + 1) behind = Softcode.escape behind := by
    rw [literalCode, Nat.add_sub_cancel, if_neg h.lastLiteral_ne, String.empty_append]
  simp only [actions, classify_literal hplace htext, hcode] at hnext hnext' ⊢
  have halike : Alike { classifier with lastLiteral := some number } (number + 1)
      { classifier with lastLiteral := some (number + 1) } (number + 1 + 1) :=
    ⟨rfl, by simp⟩
  exact ⟨_, rfl, congrArg _ (halike.actions hnext hnext' rest)⟩

/-- Lines that are moved down by one give the same actions, unless the first of them is a
literal line and the classifier has just seen another. -/
theorem actions_succ (h : classifier.Standing number) (lines : List String) :
    classifier.actions (number + 1) lines = classifier.actions number lines ∨
      classifier.lastLiteral = some (number - 1) ∧
        ∃ block text behind rest, classifier.place = .inside block ∧
          lines = text :: rest ∧ literalText? text = some behind := by
  by_cases hlast : classifier.lastLiteral = some (number - 1)
  · cases lines with
    | nil => exact .inl rfl
    | cons text rest =>
        rcases literal_or_not classifier text with ⟨block, behind, hplace, htext⟩ | htext
        · exact .inr ⟨hlast, block, text, behind, rest, hplace, rfl, htext⟩
        · left
          -- The first line forgets the literal line, or leaves it behind at a distance.
          have hnext := standing_classify h text
          have hnext' := standing_classify h.succ text
          obtain ⟨actions, ⟨hsame, hsame'⟩ | ⟨place, henter, henter'⟩⟩ :=
            classify_renumber rfl htext number (number + 1)
          · rw [hsame] at hnext
            rw [hsame'] at hnext'
            simp only [Classifier.actions, hsame, hsame']
            rw [(Alike.behind rfl h h.succ).actions hnext hnext']
          · rw [henter] at hnext
            rw [henter'] at hnext'
            simp only [Classifier.actions, henter, henter']
            rw [(Alike.enter place _ _).actions hnext hnext']
  · left
    -- The same classifier at two numbers: no literal line is right in front of either.
    have halike : Alike classifier number classifier (number + 1) :=
      ⟨rfl, by simp [hlast, h.lastLiteral_ne]⟩
    exact halike.actions h h.succ lines

/-- The classifier has just seen a literal line exactly if the last line is one and stands
inside a block. -/
theorem lastLiteral_after_iff (h : classifier.Standing number) (earlier : List String)
    (text : String) :
    (classifier.after number (earlier ++ [text])).lastLiteral = some (number + earlier.length) ↔
      ∃ block behind, (classifier.after number earlier).place = .inside block ∧
        literalText? text = some behind := by
  have hearlier := standing_after h earlier
  rw [after_append]
  simp only [after]
  constructor
  · intro hlast
    rcases classify_cases (classifier.after number earlier) (number + earlier.length) text with
      hsame | ⟨place, henter⟩ | ⟨block, behind, hplace, htext, -⟩
    · rw [hsame] at hlast
      exact absurd hlast hearlier.lastLiteral_ne
    · rw [henter] at hlast
      cases hlast
    · exact ⟨block, behind, hplace, htext⟩
  · rintro ⟨block, behind, hplace, htext⟩
    rw [classify_literal hplace htext]

end Classifier

end Gridwright
