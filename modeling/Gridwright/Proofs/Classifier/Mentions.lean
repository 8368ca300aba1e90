import Gridwright.Proofs.Classifier.Stream
import Gridwright.Proofs.Line.Shapes

/-!
# What a classifier mentions

A classifier speaks of rooms, exits and objects of the game: in the block that it remembers and in
the directives that it gives out.  All of this stands in the lines that it has read.  A reading is
well-formed in what it mentions (`Form.wellFormed_of_read?`), and a response mentions nothing that
is neither remembered nor read (`mentions_respond`), so along every run all labels are quoted names
with a suffix, and all dbrefs are numbers (`mentions_well_formed`).
-/

namespace Gridwright

open Gridwright.Text

/-! ### Well-formed references -/

theorem Label.between?_append {inner behind : List Char} (h : '"' ∉ behind) :
    between? ('"' :: (inner ++ '"' :: behind)) = some inner := by
  have hskip : (inner ++ '"' :: behind).reverse.dropWhile (· != '"') = '"' :: inner.reverse := by
    rw [List.reverse_append, List.reverse_cons, List.append_assoc,
      List.dropWhile_append_of_pos fun c hc => bne_iff_ne.mpr
        (ne_of_mem_of_not_mem (List.mem_reverse.mp hc) h)]
    rfl
  simp only [between?, List.dropWhile_cons, bne_self_eq_false, Bool.false_eq_true, if_false, hskip,
    List.reverse_reverse]

/-- The parts that the text of a label has. -/
structure Label.WellFormed (label : Label) : Prop where
  /-- It stays within one line. -/
  single : '\n' ∉ label.text.toList
  /-- It is quoted, and what is glued to the closing quote cannot be taken for an arrow. -/
  quoted : ∃ body suffix, label.text.toList = '"' :: (body ++ '"' :: suffix) ∧
    (∀ c ∈ suffix, isBlank c = false) ∧ ∀ c ∈ suffix.head?, c ≠ '-' ∧ c ≠ '>'
  /-- Its name is what stands between its first and its last quote, and these are two. -/
  named : ∃ inner behind, label.text.toList = '"' :: (inner ++ '"' :: behind) ∧ '"' ∉ behind ∧
    label.name = String.ofList inner

theorem Line.IsLabel.wellFormed {label : Label} (h : IsLabel label.text.toList) :
    label.WellFormed := by
  obtain ⟨body, suffix, htext, hparts⟩ := h
  refine ⟨?_, ⟨body, suffix, htext, hparts.solid, ?_⟩, ?_⟩
  · have hsuffix : '\n' ∉ suffix := by
      intro hmem
      exact absurd (hparts.solid '\n' hmem) (by decide)
    simp [htext, hparts.single, hsuffix]
  · intro c hc
    have hstarts := hparts.starts c hc
    simp only [startsSuffix, Bool.and_eq_true, bne_iff_ne] at hstarts
    exact hstarts.1
  · -- The last quote need not be the one that closes the body: a suffix may hold quotes too.
    have hquote : '"' ∈ (body ++ '"' :: suffix).reverse := by simp
    obtain ⟨tail, front, hsplit, hlast⟩ := List.eq_append_cons_of_mem hquote
    have htext' : label.text.toList = '"' :: (front.reverse ++ '"' :: tail.reverse) := by
      rw [htext, ← List.reverse_reverse (body ++ '"' :: suffix), hsplit]
      simp
    have hbehind : '"' ∉ tail.reverse := fun hmem => hlast (List.mem_reverse.mp hmem)
    refine ⟨front.reverse, tail.reverse, htext', hbehind, ?_⟩
    rw [Label.name, htext', Label.between?_append hbehind]
    rfl

/-- A dbref is a number behind a sign, and a label has the parts of one. -/
def Reference.WellFormed : Reference → Prop
  | .dbref text => ∃ digits, text.toList = '#' :: digits ∧ digits ≠ [] ∧
      ∀ c ∈ digits, isDecimalDigit c = true
  | .label target => target.WellFormed

/-! ### Mentions -/

/-- What a reading says about which rooms, exits and objects. -/
def Line.Reading.mentions : Reading → List Reference
  | .blank | .ignored | .literal _ | .comment | .attrBase _ | .flags _ _ | .endIn | .endOn
  | .anything => []
  | .exitAlias exit _ => [.label exit]
  | .reverse exit back => [.label exit, .label back]
  | .reference _ _ value => value.toList
  | .link exit first hops =>
    .label exit :: .label first :: (Line.hops hops.toList).map (.label ·.room)
  | .inRoom room | .describe room _ => [.label room]
  | .onExit exit room => [.label exit, .label room]

def Action.mentions : Action → List Reference
  | .nop | .error _ | .warning _ | .attrBase _ | .setFlags _ _ => []
  | .exitAlias exit _ => [.label exit]
  | .reverse exit back => [.label exit, .label back]
  | .setReference _ _ value => value.toList
  | .createRoom room | .bufferRoom room _ => [.label room]
  | .createExit exit source target | .createReverseExit exit source target =>
    [.label exit, .label source, .label target]
  | .bufferExit room exit _ => [.label room, .label exit]

def Block.mentions : Block → List Reference
  | .inRoom room => [.label room]
  | .onExit room exit => [.label room, .label exit]

/-- What the classifier remembers from the line that opened the block. -/
def Classifier.mentions (classifier : Classifier) : List Reference :=
  match classifier.place with
  | .outside | .failed => []
  | .inside block => block.mentions

@[simp] theorem Action.mentions_nop : Action.nop.mentions = [] := rfl

@[simp] theorem Action.mentions_warning (message : String) :
    (Action.warning message).mentions = [] := rfl

@[simp] theorem Block.mentions_buffer (block : Block) (text : String) :
    (block.buffer text).mentions = block.mentions := by
  cases block <;> rfl

/-! ### Readings -/

namespace Line

theorem wellFormed_of_dbref? {s text : List Char} (h : dbref? s = some text) :
    (Reference.dbref (String.ofList text)).WellFormed := by
  unfold dbref? at h
  split at h
  · rename_i digits _
    split at h
    · cases h
    · rename_i hnumber
      cases h
      simp only [Bool.or_eq_true, List.isEmpty_iff, Bool.not_eq_true', not_or,
        Bool.not_eq_false, List.all_eq_true] at hnumber
      exact ⟨digits, String.toList_ofList, hnumber⟩
  · cases h

theorem IsLabel.wellFormed_ofList {text : List Char} (h : IsLabel text) :
    (Reference.label ⟨String.ofList text⟩).WellFormed := by
  have htext : IsLabel (Label.mk (String.ofList text)).text.toList := by
    rwa [String.toList_ofList]
  exact htext.wellFormed

theorem wellFormed_of_referenceValue? {form : ReferenceForm} {s : List Char}
    {value : Option Reference} (h : referenceValue? form s = some value) :
    ∀ reference ∈ value, reference.WellFormed := by
  intro reference hreference
  cases form with
  | reset =>
      simp only [referenceValue?] at h
      split at h <;> cases h
      cases hreference
  | dbref =>
      obtain ⟨text, htext, rfl⟩ := Option.map_eq_some_iff.mp h
      cases hreference
      exact wellFormed_of_dbref? htext
  | label =>
      obtain ⟨text, htext, rfl⟩ := Option.map_eq_some_iff.mp h
      cases hreference
      exact (isLabel_of_closingLabel? htext).wellFormed_ofList

theorem wellFormed_quotedLabel {body : List Char} (h : '\n' ∉ body) :
    (Reference.label (quotedLabel body)).WellFormed :=
  (isLabel_quotedLabel h).wellFormed

/-- What is read off a line is well-formed, whatever the line holds. -/
theorem Form.wellFormed_of_read? {form : Form} {s : List Char} {reading : Reading}
    (h : form.read? s = some reading) : ∀ reference ∈ reading.mentions, reference.WellFormed := by
  cases form with
  | blank | anything =>
      simp only [read?] at h
      split at h <;> cases h
      simp [Reading.mentions]
  | ignored | literal =>
      obtain ⟨rest, -, rfl⟩ := Option.map_eq_some_iff.mp h
      simp [Reading.mentions]
  | attrBase =>
      obtain ⟨rest, -, hrest⟩ := Option.bind_eq_some_iff.mp h
      simp only at hrest
      split at hrest <;> cases hrest
      simp [Reading.mentions]
  | comment | endIn | endOn =>
      obtain ⟨rest, -, hrest⟩ := Option.bind_eq_some_iff.mp h
      split at hrest <;> cases hrest
      simp [Reading.mentions]
  | flags kind given =>
      obtain ⟨rest, -, hrest⟩ := Option.bind_eq_some_iff.mp h
      obtain ⟨value, -, rfl⟩ := Option.map_eq_some_iff.mp hrest
      simp [Reading.mentions]
  | exitAlias =>
      obtain ⟨⟨exit, names⟩, hpair, rfl⟩ := Option.map_eq_some_iff.mp h
      simpa [Reading.mentions] using wellFormed_quotedLabel (single_of_keywordPair? hpair).1
  | reverse =>
      obtain ⟨⟨exit, back⟩, hpair, rfl⟩ := Option.map_eq_some_iff.mp h
      obtain ⟨hexit, hback⟩ := single_of_keywordPair? hpair
      simpa [Reading.mentions] using ⟨wellFormed_quotedLabel hexit, wellFormed_quotedLabel hback⟩
  | reference kind slot form =>
      obtain ⟨rest, -, hrest⟩ := Option.bind_eq_some_iff.mp h
      obtain ⟨value, hvalue, rfl⟩ := Option.map_eq_some_iff.mp hrest
      simpa [Reading.mentions] using wellFormed_of_referenceValue? hvalue
  | link =>
      obtain ⟨⟨exit, first, hops⟩, hlink, rfl⟩ := Option.map_eq_some_iff.mp h
      obtain ⟨hexit, hfirst⟩ := isLabel_of_link? hlink
      intro reference hreference
      rcases List.mem_cons.mp hreference with rfl | hreference
      · exact hexit.wellFormed_ofList
      · rcases List.mem_cons.mp hreference with rfl | hreference
        · exact hfirst.wellFormed_ofList
        · obtain ⟨hop, hhop, rfl⟩ := List.mem_map.mp hreference
          exact (isLabel_of_mem_hops hhop).wellFormed
  | inRoom =>
      obtain ⟨rest, -, hrest⟩ := Option.bind_eq_some_iff.mp h
      obtain ⟨room, hroom, rfl⟩ := Option.map_eq_some_iff.mp hrest
      obtain ⟨behind, -, hlabel⟩ := Option.bind_eq_some_iff.mp hroom
      simpa [Reading.mentions] using (isLabel_of_closingLabel? hlabel).wellFormed_ofList
  | onExit =>
      obtain ⟨rest, -, hrest⟩ := Option.bind_eq_some_iff.mp h
      obtain ⟨⟨exit, room⟩, hparts, rfl⟩ := Option.map_eq_some_iff.mp hrest
      obtain ⟨behind, -, hlabels⟩ := Option.bind_eq_some_iff.mp hparts
      obtain ⟨hexit, hroom⟩ := labels_of_exitFrom? hlabels
      simpa [Reading.mentions] using ⟨wellFormed_quotedLabel hexit, hroom.wellFormed_ofList⟩
  | describe =>
      obtain ⟨⟨room, text⟩, hparts, rfl⟩ := Option.map_eq_some_iff.mp h
      obtain ⟨rest, -, hrest⟩ := Option.bind_eq_some_iff.mp hparts
      obtain ⟨behind, -, hlabel⟩ := Option.bind_eq_some_iff.mp hrest
      simpa [Reading.mentions] using (isLabel_of_description? hlabel).wellFormed_ofList

end Line

/-! ### Responses -/

theorem mentions_pathActions (exit previous : Label) (hops : List Hop) :
    ∀ action ∈ pathActions exit previous hops, action.mentions ⊆
      .label exit :: .label previous :: hops.map (.label ·.room) := by
  induction hops generalizing previous with
  | nil => simp [pathActions]
  | cons hop rest ih =>
      intro action haction
      simp only [pathActions, List.mem_cons, List.mem_append] at haction
      rcases haction with rfl | rfl | hback | hrest
      · simp [Action.mentions]
      · simp [Action.mentions]
      · split at hback
        · rw [List.mem_singleton.mp hback]
          simp [Action.mentions]
        · cases hback
      · refine List.Subset.trans (ih hop.room action hrest) ?_
        exact List.cons_subset_cons _ (List.subset_cons_self _ _)

namespace Classifier

variable {classifier next : Classifier} {line : SourceLine} {reading : Line.Reading}
variable {actions : List Action}

theorem mentions_outside (h : classifier.outside line reading = some (next, actions)) :
    next.mentions ⊆ classifier.mentions ++ reading.mentions ∧
      ∀ action ∈ actions, action.mentions ⊆ classifier.mentions ++ reading.mentions := by
  cases reading with
  | ignored | literal => cases h
  | link exit first hops =>
      cases h
      refine ⟨List.subset_append_left _ _, ?_⟩
      intro action haction
      refine List.subset_append_of_subset_right _ ?_
      rcases List.mem_cons.mp haction with rfl | hpath
      · simp [Action.mentions, Line.Reading.mentions]
      · exact mentions_pathActions exit first _ action hpath
  | endIn | endOn | anything | inRoom | onExit | blank | comment | attrBase | exitAlias | reverse
  | reference | flags | describe =>
      cases h
      simp [mentions, enter, Block.mentions, Action.mentions, Line.Reading.mentions]

theorem mentions_inside {block : Block} (hplace : classifier.place = .inside block)
    (h : classifier.inside block line reading = some (next, actions)) :
    next.mentions ⊆ classifier.mentions ∧
      ∀ action ∈ actions, action.mentions ⊆ classifier.mentions := by
  cases reading with
  | endIn | endOn =>
      cases block <;> cases h <;> simp [mentions, enter]
  | blank | ignored | literal | comment | anything | attrBase | exitAlias | reverse | reference
  | flags | link | inRoom | onExit | describe =>
      cases h
      simp [mentions, hplace]

/-- A response mentions nothing that the classifier does not remember and the line does not say. -/
theorem mentions_respond (h : classifier.respond line reading = some (next, actions)) :
    next.mentions ⊆ classifier.mentions ++ reading.mentions ∧
      ∀ action ∈ actions, action.mentions ⊆ classifier.mentions ++ reading.mentions := by
  unfold respond at h
  split at h
  · exact mentions_outside h
  · rename_i hplace
    obtain ⟨hnext, hactions⟩ := mentions_inside hplace h
    exact ⟨List.subset_append_of_subset_left _ hnext, fun action haction =>
      List.subset_append_of_subset_left _ (hactions action haction)⟩
  · cases h

/-! ### Runs -/

theorem wellFormed_classify (h : ∀ reference ∈ classifier.mentions, reference.WellFormed)
    (number : Nat) (text : String) :
    (∀ reference ∈ (classifier.classify number text).1.mentions, reference.WellFormed) ∧
      ∀ action ∈ (classifier.classify number text).2,
        ∀ reference ∈ action.mentions, reference.WellFormed := by
  unfold classify
  cases hresponse : classifier.response Line.Form.table (.of number text) with
  | none => exact ⟨h, by simp⟩
  | some result =>
      obtain ⟨form, -, hform⟩ := List.exists_of_findSome?_eq_some hresponse
      obtain ⟨reading, hread, hrespond⟩ := Option.bind_eq_some_iff.mp hform
      obtain ⟨hnext, hactions⟩ := mentions_respond hrespond
      have hknown : ∀ reference ∈ classifier.mentions ++ reading.mentions,
          reference.WellFormed :=
        List.forall_mem_append.mpr ⟨h, Line.Form.wellFormed_of_read? hread⟩
      exact ⟨fun reference hmem => hknown reference (hnext hmem),
        fun action haction reference hmem => hknown reference (hactions action haction hmem)⟩

/-- What a classifier comes to when it reads some numbered lines, and the directives that it gives
out on the way. -/
def run (file : String) (classifier : Classifier) :
    List (String × Nat) → Classifier × List Directive
  | [] => (classifier, [])
  | (text, number) :: rest =>
    let (next, actions) := classifier.classify number text
    let (last, directives) := run file next rest
    (last, actions.map (⟨⟨file, number⟩, ·⟩) ++ directives)

/-- A source is read in one run, over lines that are numbered one after another. -/
theorem run_zipIdx (file : String) (classifier : Classifier) (lines : List String) (number : Nat) :
    classifier.run file (lines.zipIdx number) =
      (classifier.after number lines, classifier.directives file number lines) := by
  induction lines generalizing classifier number with
  | nil => rfl
  | cons text rest ih =>
      rw [List.zipIdx_cons, run]
      simp only [ih]
      rfl

theorem wellFormed_run (h : ∀ reference ∈ classifier.mentions, reference.WellFormed)
    (file : String) (lines : List (String × Nat)) :
    (∀ reference ∈ (classifier.run file lines).1.mentions, reference.WellFormed) ∧
      ∀ directive ∈ (classifier.run file lines).2,
        ∀ reference ∈ directive.action.mentions, reference.WellFormed := by
  induction lines generalizing classifier with
  | nil => exact ⟨h, by simp [run]⟩
  | cons line rest ih =>
      obtain ⟨text, number⟩ := line
      obtain ⟨hnext, hactions⟩ := wellFormed_classify h number text
      obtain ⟨hlast, hrest⟩ := ih hnext
      refine ⟨hlast, ?_⟩
      intro directive hdirective
      rcases List.mem_append.mp hdirective with hown | hlater
      · obtain ⟨action, haction, rfl⟩ := List.mem_map.mp hown
        exact hactions action haction
      · exact hrest directive hlater

/-- Along every run, the labels that a classifier remembers and those that it gives out are quoted
names with a suffix, within one line, and the dbrefs are numbers.  So the name of such a label is
always found between its first and its last quote. -/
theorem mentions_well_formed (file : String) (lines : List (String × Nat)) :
    (∀ reference ∈ (run file {} lines).1.mentions, reference.WellFormed) ∧
      ∀ directive ∈ (run file {} lines).2,
        ∀ reference ∈ directive.action.mentions, reference.WellFormed :=
  wellFormed_run (by simp [mentions]) file lines

/-- Digits of any script make a number, and the quotes of a label need not be its only ones. -/
theorem mentions_well_formed_sample :
    run "grid" {} [("ROOM ZONE: #٣", 1), ("ON \"out\" FROM \"Yard\"x\"y", 7)] =
        ({ place := .inside (.onExit ⟨"\"Yard\"x\"y"⟩ ⟨"\"out\""⟩) },
          [⟨⟨"grid", 1⟩, .setReference .room .zone (some (.dbref "#٣"))⟩, ⟨⟨"grid", 7⟩, .nop⟩]) ∧
      (Reference.dbref "#٣").WellFormed ∧ (Label.mk "\"Yard\"x\"y").WellFormed := by
  have hrun : run "grid" {} [("ROOM ZONE: #٣", 1), ("ON \"out\" FROM \"Yard\"x\"y", 7)] =
      ({ place := .inside (.onExit ⟨"\"Yard\"x\"y"⟩ ⟨"\"out\""⟩) },
        [⟨⟨"grid", 1⟩, .setReference .room .zone (some (.dbref "#٣"))⟩, ⟨⟨"grid", 7⟩, .nop⟩]) := by
    decide +kernel
  have hmentions := mentions_well_formed "grid"
    [("ROOM ZONE: #٣", 1), ("ON \"out\" FROM \"Yard\"x\"y", 7)]
  rw [hrun] at hmentions
  refine ⟨hrun, ?_, ?_⟩
  · exact hmentions.2 _ List.mem_cons_self _ List.mem_cons_self
  · exact hmentions.1 _ List.mem_cons_self

end Classifier

/-- All that the directives of a source mention is well-formed. -/
theorem Source.wellFormed_directives (source : Source) :
    ∀ directive ∈ source.directives,
      ∀ reference ∈ directive.action.mentions, reference.WellFormed := by
  have hstart : ∀ reference ∈ ({} : Classifier).mentions, reference.WellFormed := by
    simp [Classifier.mentions]
  have hrun := (Classifier.wellFormed_run hstart source.name
    (((Text.lines source.text.toList).map String.ofList).zipIdx 1)).2
  rwa [Classifier.run_zipIdx] at hrun

end Gridwright
