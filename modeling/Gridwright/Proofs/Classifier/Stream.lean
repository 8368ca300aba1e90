import Gridwright.Classifier
import Gridwright.Proofs.Text.Pieces
import Mathlib.Data.List.Basic

/-!
# The directives of a source, line by line

Outside of its blocks and inside of them, a source answers every line: a line that is
blank is read as such, and every other line is at least a text of its own.  Only a line
that ends the source gives an error, and it gives nothing else; behind it no line gives
anything.

So the directives of a source follow its lines: they come in the order of the lines, no
line is passed over up to the one that ends the source, and an error is the last of all
(`Covers`).
-/

namespace Gridwright

/-! ### Texts without line feeds -/

namespace Text

theorem newline_not_mem_of_mem_lines {s line : List Char} (h : line ∈ lines s) : '\n' ∉ line := by
  have hpiece : ∀ piece ∈ pieces (· == '\n') s, '\n' ∉ piece := by
    intro piece hpiece hmem
    have := not_separator_of_mem_pieces hpiece hmem
    simp at this
  rcases List.mem_append.mp h with hfull | hlast
  · obtain ⟨piece, hmem, rfl⟩ := List.mem_map.mp hfull
    intro hline
    refine hpiece piece (List.dropLast_subset _ hmem) ?_
    unfold dropReturn at hline
    split at hline
    · exact List.dropLast_subset _ hline
    · exact hline
  · have hmem := Option.mem_toList.mp (List.mem_filter.mp hlast).1
    exact hpiece line (List.mem_of_getLast? hmem)

theorem trimStart_sublist (s : List Char) : (trimStart s).Sublist s := List.dropWhile_sublist _

theorem trimEnd_sublist (s : List Char) : (trimEnd s).Sublist s := by
  have h := (List.dropWhile_sublist (l := s.reverse) isBlank).reverse
  rwa [List.reverse_reverse] at h

end Text

theorem SourceLine.newline_not_mem_trimmed {text : String} (h : '\n' ∉ text.toList)
    (number : Nat) : '\n' ∉ (SourceLine.of number text).trimmed := by
  intro hmem
  exact h (((Text.trimStart_sublist _).trans (Text.trimEnd_sublist _)).subset hmem)

/-! ### One line -/

def Action.isError : Action → Bool
  | .error _ => true
  | _ => false

@[simp] theorem Action.isError_warning (message : String) :
    (Action.warning message).isError = false := rfl

@[simp] theorem Block.isError_buffer (block : Block) (text : String) :
    (block.buffer text).isError = false := by
  cases block <;> rfl

/-- What a line comes to: the source ends, or goes on with something that is no error. -/
inductive Answers : Place → List Action → Prop
  | ends (message : String) : Answers .failed [.error message]
  | goesOn {place : Place} {actions : List Action} (hplace : place ≠ .failed)
      (hsome : actions ≠ []) (hquiet : ∀ action ∈ actions, action.isError = false) :
      Answers place actions

theorem isError_pathActions (exit : Label) (previous : Label) (hops : List Hop) :
    ∀ action ∈ pathActions exit previous hops, action.isError = false := by
  induction hops generalizing previous with
  | nil =>
      intro action hmem
      cases hmem
  | cons hop rest ih =>
      intro action hmem
      simp only [pathActions, List.mem_cons, List.mem_append] at hmem
      rcases hmem with rfl | rfl | hback | hrest
      · rfl
      · rfl
      · split at hback
        · rw [List.mem_singleton.mp hback]
          rfl
        · cases hback
      · exact ih hop.room action hrest

namespace Classifier

theorem answers_outside {classifier next : Classifier} {line : SourceLine}
    {reading : Line.Reading} {actions : List Action} (hplace : classifier.place ≠ .failed)
    (h : classifier.outside line reading = some (next, actions)) : Answers next.place actions := by
  cases reading with
  | ignored | literal => cases h
  | endIn | endOn | anything =>
      cases h
      exact .ends _
  | link exit first hops =>
      cases h
      refine .goesOn hplace (List.cons_ne_nil _ _) ?_
      intro action hmem
      rcases List.mem_cons.mp hmem with rfl | hpath
      · rfl
      · exact isError_pathActions exit first _ action hpath
  | inRoom | onExit =>
      cases h
      exact .goesOn (by simp [enter]) (by simp) (by simp [Action.isError])
  | blank | comment | attrBase | exitAlias | reverse | reference | flags | describe =>
      cases h
      exact .goesOn hplace (by simp) (by simp [Action.isError])

theorem answers_inside {classifier next : Classifier} {block : Block} {line : SourceLine}
    {reading : Line.Reading} {actions : List Action} (hplace : classifier.place ≠ .failed)
    (h : classifier.inside block line reading = some (next, actions)) :
    Answers next.place actions := by
  cases reading with
  | endIn | endOn =>
      cases block with
      | inRoom room =>
          cases h
          exact .goesOn (by simp [enter]) (by simp) (by simp [Action.isError])
      | onExit room exit =>
          cases h
          exact .goesOn (by simp [enter]) (by simp) (by simp [Action.isError])
  | blank | ignored =>
      cases h
      exact .goesOn hplace (by simp) (by simp [Action.isError])
  | literal | comment | anything =>
      cases h
      exact .goesOn hplace (by simp) (by simp)
  | attrBase | exitAlias | reverse | reference | flags | link | inRoom | onExit | describe =>
      cases h
      exact .goesOn hplace (by simp) (by simp)

theorem answers_respond {classifier next : Classifier} {line : SourceLine}
    {reading : Line.Reading} {actions : List Action}
    (h : classifier.respond line reading = some (next, actions)) : Answers next.place actions := by
  unfold respond at h
  split at h
  · rename_i hplace
    exact answers_outside (by simp [hplace]) h
  · rename_i hplace
    exact answers_inside (by simp [hplace]) h
  · cases h

/-- A line of a live source is blank or a text of its own, and both get a response. -/
theorem exists_response {classifier : Classifier} (hlive : classifier.place ≠ .failed)
    {line : SourceLine} (hline : '\n' ∉ line.trimmed) :
    ∃ result, classifier.response Line.Form.table line = some result := by
  suffices hform : ∃ form ∈ Line.Form.table,
      ((form.read? line.trimmed).bind (classifier.respond line)).isSome = true from
    Option.isSome_iff_exists.mp (List.findSome?_isSome_iff.mpr hform)
  cases hblank : Line.isBlankText line.trimmed with
  | true =>
      refine ⟨.blank, by simp [Line.Form.table], ?_⟩
      simp only [Line.Form.read?, hblank, if_true, Option.bind_some, respond]
      split
      · rfl
      · rfl
      · contradiction
  | false =>
      refine ⟨.anything, by simp [Line.Form.table], ?_⟩
      have hne : line.trimmed.isEmpty = false := by
        cases hs : line.trimmed with
        | nil =>
            rw [hs] at hblank
            cases hblank
        | cons c s => rfl
      have hsingle : Line.isSingleLine line.trimmed = true := by
        refine List.all_eq_true.mpr ?_
        intro c hc
        exact bne_iff_ne.mpr fun heq => hline (heq ▸ hc)
      simp only [Line.Form.read?, hne, hsingle, Bool.not_true, Bool.or_self, Bool.false_eq_true,
        if_false, Option.bind_some, respond]
      split
      · rfl
      · rfl
      · contradiction

theorem answers_classify {classifier : Classifier} (hlive : classifier.place ≠ .failed)
    {text : String} (htext : '\n' ∉ text.toList) (number : Nat) :
    Answers (classifier.classify number text).1.place (classifier.classify number text).2 := by
  obtain ⟨⟨next, actions⟩, hresponse⟩ :=
    exists_response hlive (SourceLine.newline_not_mem_trimmed htext number)
  obtain ⟨form, -, hform⟩ := List.exists_of_findSome?_eq_some hresponse
  obtain ⟨reading, -, hrespond⟩ := Option.bind_eq_some_iff.mp hform
  simp only [classify, hresponse, Option.getD_some]
  exact answers_respond hrespond

theorem classify_of_failed {classifier : Classifier} (hfailed : classifier.place = .failed)
    (number : Nat) (text : String) : classifier.classify number text = (classifier, []) := by
  have hnone : classifier.response Line.Form.table (.of number text) = none := by
    refine List.findSome?_eq_none_iff.mpr ?_
    intro form _
    refine Option.bind_eq_none_iff.mpr ?_
    intro reading _
    simp only [respond, hfailed]
  simp only [classify, hnone, Option.getD_none]

/-! ### All lines -/

/-- The classifier behind some lines, the first of which has the given number. -/
def after (classifier : Classifier) (number : Nat) : List String → Classifier
  | [] => classifier
  | text :: rest => after (classifier.classify number text).1 (number + 1) rest

theorem behind_failed (classifier : Classifier) (hfailed : classifier.place = .failed)
    (file : String) (number : Nat) (lines : List String) :
    classifier.directives file number lines = [] ∧ classifier.after number lines = classifier := by
  induction lines generalizing number with
  | nil => exact ⟨rfl, rfl⟩
  | cons text rest ih => simp [directives, after, classify_of_failed hfailed, ih]

theorem line_ge_of_mem_directives {classifier : Classifier} {file : String} {number : Nat}
    {lines : List String} {directive : Directive}
    (hmem : directive ∈ classifier.directives file number lines) :
    number ≤ directive.location.line := by
  induction lines generalizing classifier number with
  | nil => cases hmem
  | cons text rest ih =>
      rcases List.mem_append.mp hmem with hown | hrest
      · obtain ⟨action, -, rfl⟩ := List.mem_map.mp hown
        exact Nat.le_refl number
      · exact Nat.le_of_succ_le (ih hrest)

theorem line_lt_of_mem_directives {classifier : Classifier} {file : String} {number : Nat}
    {lines : List String} {directive : Directive}
    (hmem : directive ∈ classifier.directives file number lines) :
    directive.location.line < number + lines.length := by
  induction lines generalizing classifier number with
  | nil => cases hmem
  | cons text rest ih =>
      rw [List.length_cons]
      rcases List.mem_append.mp hmem with hown | hrest
      · obtain ⟨action, -, rfl⟩ := List.mem_map.mp hown
        dsimp only
        omega
      · have hlater := ih hrest
        omega

end Classifier

/-- The directives of some consecutive lines of a file: they follow the lines, pass over
none up to a line that ends the source, and have an error only at their end, alone on its
line. -/
structure Covers (file : String) (first count : Nat) (stream : List Directive) : Prop where
  file : ∀ directive ∈ stream, directive.location.file = file
  within : ∀ directive ∈ stream,
    first ≤ directive.location.line ∧ directive.location.line < first + count
  ordered : stream.Pairwise fun earlier later =>
    earlier.location.line ≤ later.location.line ∧ earlier.action.isError = false ∧
      (later.action.isError = true → earlier.location.line < later.location.line)
  reached : ∀ number, first ≤ number → number < first + count →
    (∀ directive ∈ stream, directive.action.isError = true → number ≤ directive.location.line) →
      ∃ directive ∈ stream, directive.location.line = number

namespace Covers

theorem nil (file : String) (first : Nat) : Covers file first 0 [] where
  file := by simp
  within := by simp
  ordered := .nil
  reached := by
    intro number hle hlt
    omega

/-- A line that ends the source, with any number of lines behind it. -/
theorem ends (file : String) (first count : Nat) (message : String) :
    Covers file first (count + 1) [⟨⟨file, first⟩, .error message⟩] where
  file := by simp
  within := by simp
  ordered := List.pairwise_singleton _ _
  reached := by
    intro number hle hlt hbound
    have hnumber : number ≤ first := hbound _ (List.mem_singleton.mpr rfl) rfl
    exact ⟨_, List.mem_singleton.mpr rfl, Nat.le_antisymm hle hnumber⟩

/-- A line that the source goes on behind. -/
theorem cons {file : String} {first count : Nat} {actions : List Action}
    {rest : List Directive} (hsome : actions ≠ [])
    (hquiet : ∀ action ∈ actions, action.isError = false) (h : Covers file (first + 1) count rest) :
    Covers file first (count + 1) (actions.map (⟨⟨file, first⟩, ·⟩) ++ rest) := by
  have hown : ∀ directive ∈ actions.map (Directive.mk ⟨file, first⟩),
      directive.location.file = file ∧ directive.location.line = first ∧
        directive.action.isError = false := by
    intro directive hmem
    obtain ⟨action, haction, rfl⟩ := List.mem_map.mp hmem
    exact ⟨rfl, rfl, hquiet action haction⟩
  constructor
  · intro directive hmem
    rcases List.mem_append.mp hmem with hline | hrest
    · exact (hown directive hline).1
    · exact h.file directive hrest
  · intro directive hmem
    rcases List.mem_append.mp hmem with hline | hrest
    · have := (hown directive hline).2.1
      omega
    · have := h.within directive hrest
      omega
  · refine List.pairwise_append.mpr ⟨?_, h.ordered, ?_⟩
    · refine List.pairwise_of_forall_mem_list ?_
      intro earlier hearlier later hlater
      obtain ⟨-, hfirst, hnone⟩ := hown earlier hearlier
      obtain ⟨-, hsame, hlast⟩ := hown later hlater
      rw [hfirst, hsame, hlast]
      exact ⟨Nat.le_refl first, hnone, fun herror => Bool.noConfusion herror⟩
    · intro earlier hearlier later hlater
      obtain ⟨-, hfirst, hnone⟩ := hown earlier hearlier
      have hbehind := (h.within later hlater).1
      exact ⟨by omega, hnone, fun _ => by omega⟩
  · intro number hle hlt hbound
    by_cases hfirst : number = first
    · obtain ⟨action, hmem⟩ := List.exists_mem_of_ne_nil actions hsome
      exact ⟨⟨⟨file, first⟩, action⟩, List.mem_append_left _ (List.mem_map_of_mem hmem),
        hfirst.symm⟩
    · obtain ⟨directive, hmem, hnumber⟩ := h.reached number (by omega) (by omega)
        fun directive hmem => hbound directive (List.mem_append_right _ hmem)
      exact ⟨directive, List.mem_append_right _ hmem, hnumber⟩

end Covers

namespace Classifier

/-- The induction is on the lines: a line ends the source or the rest goes on behind it. -/
theorem covers_directives (classifier : Classifier) (hlive : classifier.place ≠ .failed)
    (file : String) (number : Nat) {lines : List String}
    (hlines : ∀ text ∈ lines, '\n' ∉ text.toList) :
    Covers file number lines.length (classifier.directives file number lines) ∧
      ((classifier.after number lines).place = .failed ↔
        ∃ directive ∈ classifier.directives file number lines,
          directive.action.isError = true) := by
  induction lines generalizing classifier number with
  | nil => exact ⟨.nil file number, by simp [after, directives, hlive]⟩
  | cons text rest ih =>
      have hanswers := answers_classify hlive (hlines text List.mem_cons_self) number
      have hrest : ∀ text ∈ rest, '\n' ∉ text.toList :=
        fun other hother => hlines other (List.mem_cons_of_mem text hother)
      simp only [directives, after, List.length_cons]
      generalize classifier.classify number text = result at hanswers
      obtain ⟨next, actions⟩ := result
      obtain ⟨place, literal⟩ := next
      cases hanswers with
      | ends message =>
          obtain ⟨hnone, hafter⟩ :=
            behind_failed ⟨.failed, literal⟩ rfl file (number + 1) rest
          rw [hnone, hafter]
          exact ⟨.ends file number rest.length message, by simp [Action.isError]⟩
      | goesOn hplace hsome hquiet =>
          obtain ⟨hcovers, hfailed⟩ :=
            ih ⟨place, literal⟩ hplace (number + 1) hrest
          refine ⟨.cons hsome hquiet hcovers, hfailed.trans ?_⟩
          constructor
          · rintro ⟨directive, hmem, herror⟩
            exact ⟨directive, List.mem_append_right _ hmem, herror⟩
          · rintro ⟨directive, hmem, herror⟩
            rcases List.mem_append.mp hmem with hown | hlater
            · obtain ⟨action, haction, rfl⟩ := List.mem_map.mp hown
              rw [hquiet action haction] at herror
              cases herror
            · exact ⟨directive, hlater, herror⟩

/-- The directives that carry the number of a line are those which the classifier gives for
that line, at the place where the lines before it have led. -/
theorem filter_directives (classifier : Classifier) (file : String) (number : Nat)
    (lines : List String) (index : Nat) (hindex : index < lines.length) :
    (classifier.directives file number lines).filter (·.location.line = number + index) =
      ((classifier.after number (lines.take index)).classify (number + index) lines[index]).2.map
        (⟨⟨file, number + index⟩, ·⟩) := by
  induction lines generalizing classifier number index with
  | nil => exact absurd hindex (Nat.not_lt_zero index)
  | cons text rest ih =>
      rw [directives, List.filter_append]
      cases index with
      | zero =>
          have hrest :
              (directives file (classifier.classify number text).1 (number + 1) rest).filter
                (·.location.line = number + 0) = [] := by
            refine List.filter_eq_nil_iff.mpr ?_
            intro directive hmem
            have hline := line_ge_of_mem_directives hmem
            exact fun heq => absurd (of_decide_eq_true heq) (by omega)
          rw [hrest]
          simp [after, List.filter_map, Function.comp_def]
      | succ index =>
          have hown : ((classifier.classify number text).2.map (Directive.mk ⟨file, number⟩)).filter
              (·.location.line = number + (index + 1)) = [] := by
            simp [List.filter_map, Function.comp_def]
          have hshift : number + (index + 1) = number + 1 + index := by omega
          rw [hown, List.nil_append, hshift]
          exact ih _ _ index (Nat.lt_of_succ_lt_succ hindex)

end Classifier

/-- Whatever the name and the text of a source, its directives follow its lines. -/
theorem Source.directives_follow_lines (source : Source) :
    let lines := (Text.lines source.text.toList).map String.ofList
    let stream := source.directives
    -- the place behind some of the lines
    let behind := fun count => Classifier.after {} 1 (lines.take count)
    (∀ directive ∈ stream, directive.location.file = source.name ∧
      1 ≤ directive.location.line ∧ directive.location.line ≤ lines.length) ∧
    (stream.Pairwise fun earlier later => earlier.location.line ≤ later.location.line) ∧
    -- a directive comes from the line whose number it carries
    (∀ index (_ : index < lines.length),
      stream.filter (·.location.line = index + 1) =
        ((behind index).classify (index + 1) lines[index]).2.map
          (⟨⟨source.name, index + 1⟩, ·⟩)) ∧
    -- no line up to the first that gives an error is passed over
    (∀ index < lines.length,
      (∀ directive ∈ stream, directive.action.isError = true →
        index + 1 ≤ directive.location.line) →
      ∃ directive ∈ stream, directive.location.line = index + 1) ∧
    -- an error is the last directive, the only error and alone on its line
    (∀ before directive after, stream = before ++ directive :: after →
      directive.action.isError = true → after = [] ∧ ∀ other ∈ before,
        other.action.isError = false ∧ other.location.line ≠ directive.location.line) ∧
    ((Classifier.after {} 1 lines).place = .failed ↔
      ∃ directive ∈ stream, directive.action.isError = true) := by
  intro lines stream behind
  have hlines : ∀ text ∈ lines, '\n' ∉ text.toList := by
    intro text htext
    obtain ⟨line, hline, rfl⟩ := List.mem_map.mp htext
    rw [String.toList_ofList]
    exact Text.newline_not_mem_of_mem_lines hline
  obtain ⟨hcovers, hfailed⟩ :
      Covers source.name 1 lines.length stream ∧ _ :=
    Classifier.covers_directives {} (by simp) source.name 1 hlines
  refine ⟨?_, hcovers.ordered.imp fun h => h.1, ?_, ?_, ?_, hfailed⟩
  · intro directive hmem
    have hwithin := hcovers.within directive hmem
    exact ⟨hcovers.file directive hmem, by omega, by omega⟩
  · intro index hindex
    have hfilter := Classifier.filter_directives {} source.name 1 lines index hindex
    rwa [Nat.add_comm 1 index] at hfilter
  · intro index hindex hbound
    exact hcovers.reached (index + 1) (by omega) (by omega) hbound
  · intro before directive after heq herror
    have hordered := hcovers.ordered
    rw [heq] at hordered
    obtain ⟨-, htail, hbefore⟩ := List.pairwise_append.mp hordered
    constructor
    · refine List.eq_nil_iff_forall_not_mem.mpr ?_
      intro other hother
      have hquiet := ((List.pairwise_cons.mp htail).1 other hother).2.1
      rw [herror] at hquiet
      cases hquiet
    · intro other hother
      obtain ⟨-, hquiet, hline⟩ := hbefore other hother directive List.mem_cons_self
      exact ⟨hquiet, Nat.ne_of_lt (hline herror)⟩

end Gridwright
