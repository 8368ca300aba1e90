import Gridwright.Proofs.Classifier.Numbering
import Gridwright.Proofs.Text.Trim

/-!
# Lines inside a block

Inside a block a line is empty or a comment of the block, literal text, the end of a block, or
code, and its text without the blank characters at its ends tells which (`classify_inside`).
All the rows of the table come to these few cases: a line that no case of its own claims is code,
and it is warned about exactly if it would have been a directive outside.  That holds since the
two places read such a line in the same way (`reading?_inside`).
-/

namespace Gridwright

open Gridwright.Text

/-! ### Forms and readings -/

namespace Line

/-- The form of the texts that are read in a certain way. -/
def Reading.form : Reading → Form
  | .blank => .blank
  | .ignored => .ignored
  | .literal _ => .literal
  | .comment => .comment
  | .attrBase _ => .attrBase
  | .exitAlias _ _ => .exitAlias
  | .reverse _ _ => .reverse
  | .reference kind slot none => .reference kind slot .reset
  | .reference kind slot (some (.dbref _)) => .reference kind slot .dbref
  | .reference kind slot (some (.label _)) => .reference kind slot .label
  | .flags kind value => .flags kind value.isSome
  | .link _ _ _ => .link
  | .inRoom _ => .inRoom
  | .onExit _ _ => .onExit
  | .endIn => .endIn
  | .endOn => .endOn
  | .describe _ _ => .describe
  | .anything => .anything

theorem form_of_referenceValue? {form : ReferenceForm} {s : List Char} {value : Option Reference}
    (h : referenceValue? form s = some value) (kind : ObjectKind) (slot : Slot) :
    (Reading.reference kind slot value).form = .reference kind slot form := by
  cases form with
  | reset =>
      simp only [referenceValue?] at h
      split at h
      · cases h
        rfl
      · cases h
  | dbref =>
      obtain ⟨text, -, rfl⟩ := Option.map_eq_some_iff.mp h
      rfl
  | label =>
      obtain ⟨text, -, rfl⟩ := Option.map_eq_some_iff.mp h
      rfl

theorem isSome_of_flagsValue? {given : Bool} {s : List Char} {value : Option String}
    (h : flagsValue? given s = some value) : value.isSome = given := by
  cases given with
  | true =>
      obtain ⟨text, -, rfl⟩ := Option.map_eq_some_iff.mp h
      rfl
  | false =>
      simp only [flagsValue?, Bool.false_eq_true, if_false] at h
      split at h
      · cases h
        rfl
      · cases h

/-- A reading tells the row of the table that it comes from. -/
theorem Form.form_of_read? {form : Form} {s : List Char} {reading : Reading}
    (h : form.read? s = some reading) : reading.form = form := by
  cases form with
  | blank | anything =>
      simp only [read?] at h
      split at h <;> cases h
      rfl
  | ignored | literal =>
      obtain ⟨rest, -, rfl⟩ := Option.map_eq_some_iff.mp h
      rfl
  | attrBase =>
      obtain ⟨rest, -, hrest⟩ := Option.bind_eq_some_iff.mp h
      simp only at hrest
      split at hrest <;> cases hrest
      rfl
  | comment | endIn | endOn =>
      obtain ⟨rest, -, hrest⟩ := Option.bind_eq_some_iff.mp h
      split at hrest <;> cases hrest
      rfl
  | exitAlias | reverse | link | describe =>
      obtain ⟨parts, -, rfl⟩ := Option.map_eq_some_iff.mp h
      rfl
  | inRoom | onExit =>
      obtain ⟨rest, -, hrest⟩ := Option.bind_eq_some_iff.mp h
      obtain ⟨parts, -, rfl⟩ := Option.map_eq_some_iff.mp hrest
      rfl
  | reference kind slot form =>
      obtain ⟨rest, -, hrest⟩ := Option.bind_eq_some_iff.mp h
      obtain ⟨value, hvalue, rfl⟩ := Option.map_eq_some_iff.mp hrest
      exact form_of_referenceValue? hvalue kind slot
  | flags kind given =>
      obtain ⟨rest, -, hrest⟩ := Option.bind_eq_some_iff.mp h
      obtain ⟨value, hvalue, rfl⟩ := Option.map_eq_some_iff.mp hrest
      rw [Reading.form, isSome_of_flagsValue? hvalue]

/-- A text that begins like a comment has no other form, the last row aside. -/
theorem Form.eq_of_read?_comment {form : Form} (hform : form ∈ table) {rest : List Char}
    {reading : Reading} (h : form.read? ('#' :: rest) = some reading) :
    form = .comment ∨ form = .anything := by
  have hrows : ∀ form ∈ table,
      form.excludes ['#'] = true ∨ form = .comment ∨ form = .anything := by
    decide +kernel
  rcases hrows form hform with hexcluded | hother
  · have hnone := read?_eq_none_of_excludes hexcluded rest
    rw [List.singleton_append, h] at hnone
    cases hnone
  · exact hother

end Line

/-! ### Readings at a place -/

theorem Place.exists_of_reading? {place : Place} {text : String} {reading : Line.Reading}
    (h : place.reading? text = some reading) :
    ∃ form ∈ Line.Form.table, form.read? (trim text.toList) = some reading := by
  obtain ⟨form, hform, hfound⟩ := List.exists_of_findSome?_eq_some h
  exact ⟨form, hform, (Option.filter_eq_some_iff.mp hfound).1⟩

/-- A line that neither blocks nor literal text claim is read inside a block as it is read
outside. -/
theorem Place.reading?_inside {text : String} (hignored : ¬ "@@".toList <+: trim text.toList)
    (hliteral : ¬ ">".toList <+: trim text.toList) (block : Block) :
    (Place.inside block).reading? text = Place.outside.reading? text := by
  unfold reading?
  congr 1
  funext form
  cases hread : form.read? (trim text.toList) with
  | none => rfl
  | some reading =>
      have hform := Line.Form.form_of_read? hread
      cases reading with
      | ignored =>
          subst hform
          obtain ⟨rest, hrest, -⟩ := Option.map_eq_some_iff.mp hread
          rw [(Line.dropWord?_eq_some_iff _ _ _).mp hrest] at hignored
          exact absurd (List.prefix_append _ _) hignored
      | literal behind =>
          subst hform
          obtain ⟨rest, hrest, -⟩ := Option.map_eq_some_iff.mp hread
          rw [(Line.dropWord?_eq_some_iff _ _ _).mp hrest] at hliteral
          exact absurd (List.prefix_append _ _) hliteral
      | _ => rfl

theorem Classifier.exists_reading? {place : Place} (hlive : place ≠ .failed) {text : String}
    (hfree : '\n' ∉ text.toList) : ∃ reading, place.reading? text = some reading := by
  have hplace : (enter place).place ≠ .failed := hlive
  obtain ⟨result, hresult⟩ := exists_response hplace (SourceLine.newline_not_mem_trimmed hfree 0)
  rw [response_eq] at hresult
  obtain ⟨reading, hreading, -⟩ := Option.bind_eq_some_iff.mp hresult
  exact ⟨reading, hreading⟩

/-! ### Code -/

/-- A line, without the blank characters at its ends, that is code inside of blocks: it is
neither empty nor a comment of the block, literal text or the end of a block. -/
structure IsCode (line : List Char) : Prop where
  nonempty : line ≠ []
  notIgnored : ¬ "@@".toList <+: line
  notLiteral : ¬ ">".toList <+: line
  notEnd : ∀ block : Block, line ≠ ("END" ++ block.keyword).toList

theorem eq_of_blank_behind {s word rest : List Char} (h : trim s = word ++ rest)
    (hrest : Line.isBlankText rest = true) : trim s = word := by
  have hlast := (trim_eq_self_iff.mp (trim_trim s)).2
  rcases List.eq_nil_or_concat' rest with rfl | ⟨front, c, rfl⟩
  · rw [h, List.append_nil]
  · have hsolid := hlast c (by rw [h, ← List.append_assoc, List.getLast?_concat]; rfl)
    have hblank := List.all_eq_true.mp hrest c (by simp)
    rw [hsolid] at hblank
    cases hblank

/-- Code is read as a comment, as a directive, or as nothing that has a name. -/
theorem IsCode.reading {text : String} (hcode : IsCode (trim text.toList))
    {reading : Line.Reading} (h : Place.outside.reading? text = some reading) :
    reading = .comment ∧ "#".toList <+: trim text.toList ∨
      reading.isDirective = true ∧ ¬ "#".toList <+: trim text.toList ∨ reading = .anything := by
  obtain ⟨form, hform, hread⟩ := Place.exists_of_reading? h
  have hsame := Line.Form.form_of_read? hread
  have hdirective : form ≠ .comment → form ≠ .anything → ¬ "#".toList <+: trim text.toList := by
    rintro hcomment hanything ⟨rest, hrest⟩
    rw [← hrest] at hread
    rcases Line.Form.eq_of_read?_comment hform hread with heq | heq
    · exact hcomment heq
    · exact hanything heq
  subst hsame
  cases reading with
  | blank =>
      simp only [Line.Reading.form, Line.Form.read?] at hread
      split at hread
      · rename_i hblank
        exact absurd (eq_of_blank_behind (List.nil_append _).symm hblank) hcode.nonempty
      · cases hread
  | ignored =>
      obtain ⟨rest, hrest, -⟩ := Option.map_eq_some_iff.mp hread
      exact absurd ⟨rest, ((Line.dropWord?_eq_some_iff _ _ _).mp hrest).symm⟩ hcode.notIgnored
  | literal behind =>
      obtain ⟨rest, hrest, -⟩ := Option.map_eq_some_iff.mp hread
      exact absurd ⟨rest, ((Line.dropWord?_eq_some_iff _ _ _).mp hrest).symm⟩ hcode.notLiteral
  | endIn =>
      obtain ⟨rest, hrest, hblank⟩ := Option.bind_eq_some_iff.mp hread
      split at hblank
      · rename_i hbehind
        exact absurd (eq_of_blank_behind ((Line.dropWord?_eq_some_iff _ _ _).mp hrest) hbehind)
          (hcode.notEnd (.inRoom ⟨""⟩))
      · cases hblank
  | endOn =>
      obtain ⟨rest, hrest, hblank⟩ := Option.bind_eq_some_iff.mp hread
      split at hblank
      · rename_i hbehind
        exact absurd (eq_of_blank_behind ((Line.dropWord?_eq_some_iff _ _ _).mp hrest) hbehind)
          (hcode.notEnd (.onExit ⟨""⟩ ⟨""⟩))
      · cases hblank
  | comment =>
      obtain ⟨rest, hrest, -⟩ := Option.bind_eq_some_iff.mp hread
      exact .inl ⟨rfl, rest, ((Line.dropWord?_eq_some_iff _ _ _).mp hrest).symm⟩
  | anything => exact .inr (.inr rfl)
  | reference kind slot value =>
      refine .inr (.inl ⟨rfl, hdirective ?_ ?_⟩)
      · rcases value with _ | (_ | _) <;> simp [Line.Reading.form]
      · rcases value with _ | (_ | _) <;> simp [Line.Reading.form]
  | attrBase | exitAlias | reverse | flags | link | inRoom | onExit | describe =>
      refine .inr (.inl ⟨rfl, hdirective ?_ ?_⟩)
      · simp [Line.Reading.form]
      · simp [Line.Reading.form]

namespace Classifier

/-- Outside of blocks a directive is answered by something else than an error. -/
theorem outside_of_isDirective (classifier : Classifier) (line : SourceLine)
    {reading : Line.Reading} (h : reading.isDirective = true) :
    ∃ result, classifier.outside line reading = some result ∧
      ∀ message, result.2 ≠ [.error message] := by
  cases reading with
  | attrBase | exitAlias | reverse | reference | flags | link | inRoom | onExit | describe =>
      exact ⟨_, rfl, by simp [linkActions]⟩
  | blank | ignored | literal | comment | endIn | endOn | anything =>
      exact absurd h (by simp [Line.Reading.isDirective])

variable {block : Block} {lastLiteral : Option Nat} {number : Nat} {text : String}

theorem classify_passed (h : trim text.toList = [] ∨ "@@".toList <+: trim text.toList) :
    classify ⟨.inside block, lastLiteral⟩ number text =
      (⟨.inside block, lastLiteral⟩, [.nop]) := by
  rcases h with hempty | ⟨rest, hrest⟩
  · have htrim : trim text.toList = [] ++ [] := hempty
    have hread : Line.Form.blank.read? ([] ++ []) = some .blank := rfl
    exact classify_of_read? htrim [] ⟨_, rfl⟩ (by simp) hread rfl
  · have hread : Line.Form.ignored.read? ("@@".toList ++ rest) = some .ignored := rfl
    exact classify_of_read? hrest.symm []
      (Line.Form.row_of_alone (by simp [Line.Form.alone]) "@@" rfl) (by simp) hread rfl

/-- The end of a block leads outside, and is warned about if another block was open. -/
theorem classify_end {other : Block} (h : trim text.toList = ("END" ++ other.keyword).toList) :
    classify ⟨.inside block, lastLiteral⟩ number text =
      (enter .outside,
        if other.keyword = block.keyword then [.nop]
        else [.warning
          ("END" ++ other.keyword ++ " inside of " ++ block.keyword ++ "-block.")]) := by
  cases other with
  | inRoom room =>
      have htrim : trim text.toList = "ENDIN".toList ++ [] := by simpa [Block.keyword] using h
      have hread : Line.Form.endIn.read? ("ENDIN".toList ++ []) = some .endIn := rfl
      refine classify_of_read? htrim []
        (Line.Form.row_of_alone (by simp [Line.Form.alone]) "ENDIN" rfl) (by simp) hread ?_
      cases block <;> rfl
  | onExit room exit =>
      have htrim : trim text.toList = "ENDON".toList ++ [] := by simpa [Block.keyword] using h
      have hread : Line.Form.endOn.read? ("ENDON".toList ++ []) = some .endOn := rfl
      refine classify_of_read? htrim []
        (Line.Form.row_of_alone (by simp [Line.Form.alone]) "ENDON" rfl) (by simp) hread ?_
      cases block <;> rfl

/-- Code is added to the block, behind a warning if it is a directive outside. -/
theorem classify_code (hcode : IsCode (trim text.toList)) (hfree : '\n' ∉ text.toList) :
    let added := block.buffer (SourceLine.of number text).code
    let answer := classify ⟨.inside block, lastLiteral⟩ number text
    let elsewhere := (classify {} number text).2
    (answer = (⟨.inside block, lastLiteral⟩, [added]) ∧
      ("#".toList <+: trim text.toList ∨ ∃ message, elsewhere = [.error message])) ∨
    (answer = (⟨.inside block, lastLiteral⟩,
        [.warning (block.directiveWarning (.of number text)), added]) ∧
      ¬ "#".toList <+: trim text.toList ∧ ∀ message, elsewhere ≠ [.error message]) := by
  intro added answer elsewhere
  obtain ⟨reading, hreading⟩ := exists_reading? (show Place.outside ≠ .failed by simp) hfree
  have hinside : answer = (inside ⟨.inside block, lastLiteral⟩ block (.of number text) reading).getD
      (⟨.inside block, lastLiteral⟩, []) := by
    have hsame := Place.reading?_inside hcode.notIgnored hcode.notLiteral block
    simp only [answer, classify_eq, hsame, hreading]
    rfl
  have houtside : elsewhere = ((outside {} (.of number text) reading).getD ({}, [])).2 := by
    simp only [elsewhere, classify_eq]
    rw [hreading]
    rfl
  rcases hcode.reading hreading with ⟨rfl, hcomment⟩ | ⟨hdirective, hother⟩ | rfl
  · exact .inl ⟨hinside, .inl hcomment⟩
  · obtain ⟨result, hresult, hquiet⟩ := outside_of_isDirective {} (.of number text) hdirective
    rw [inside_of_isDirective _ _ _ _ hdirective] at hinside
    rw [hresult] at houtside
    exact .inr ⟨hinside, hother, fun message => houtside ▸ hquiet message⟩
  · exact .inl ⟨hinside, .inr ⟨_, houtside⟩⟩

/-- Inside a block there are no other actions than to add to it and to warn. -/
theorem actions_inside {classifier : Classifier} {line : SourceLine} {reading : Line.Reading}
    {result : Classifier × List Action} (h : classifier.inside block line reading = some result)
    {action : Action} (haction : action ∈ result.2) :
    action = .nop ∨ (∃ message, action = .warning message) ∨
      ∃ added, action = block.buffer added := by
  cases reading with
  | blank | ignored =>
      cases h
      exact .inl (List.mem_singleton.mp haction)
  | literal | comment | anything =>
      cases h
      exact .inr (.inr ⟨_, List.mem_singleton.mp haction⟩)
  | endIn =>
      cases block with
      | inRoom room =>
          cases h
          exact .inl (List.mem_singleton.mp haction)
      | onExit room exit =>
          cases h
          exact .inr (.inl ⟨_, List.mem_singleton.mp haction⟩)
  | endOn =>
      cases block with
      | inRoom room =>
          cases h
          exact .inr (.inl ⟨_, List.mem_singleton.mp haction⟩)
      | onExit room exit =>
          cases h
          exact .inl (List.mem_singleton.mp haction)
  | attrBase | exitAlias | reverse | reference | flags | link | inRoom | onExit | describe =>
      cases h
      rcases List.mem_cons.mp haction with rfl | hadded
      · exact .inr (.inl ⟨_, rfl⟩)
      · exact .inr (.inr ⟨_, List.mem_singleton.mp hadded⟩)

/-- Inside a block, every line does one of four things, and what it does depends on its text
without the blank characters at its ends: it passes, it adds literal text, it ends the block or
it adds code.  Whatever it is, nothing but the code of the block changes. -/
theorem classify_inside (block : Block) (lastLiteral : Option Nat) (number : Nat) {text : String}
    (hfree : '\n' ∉ text.toList) :
    let here : Classifier := ⟨.inside block, lastLiteral⟩
    let line := trim text.toList
    let answer := here.classify number text
    -- what is added goes to the room or the exit of the block
    let adds : String → Action := match block with
      | .inRoom room => .bufferRoom room
      | .onExit room exit => .bufferExit room exit
    -- a line of the block and a line of a fresh source
    let code := adds (String.ofList (codeChars (trimEnd text.toList)))
    let elsewhere := (classify {} number text).2
    (line = [] ∨ "@@".toList <+: line → answer = (here, [.nop])) ∧
    (∀ rest, line = '>' :: rest →
      answer = ({ here with lastLiteral := some number },
        [adds ((if lastLiteral = some (number - 1) then "%r" else "") ++
          Softcode.escape (String.ofList rest))])) ∧
    (∀ other : Block, line = ("END" ++ other.keyword).toList →
      answer = ({}, if other.keyword = block.keyword then [.nop]
        else [.warning
          ("END" ++ other.keyword ++ " inside of " ++ block.keyword ++ "-block.")])) ∧
    (IsCode line →
      (answer = (here, [code]) ∧
        ("#".toList <+: line ∨ ∃ message, elsewhere = [.error message])) ∨
      (answer = (here,
          [.warning ("Directive matched inside " ++ block.keyword ++ " state: '" ++
            String.ofList line ++ "'"), code]) ∧
        ¬ "#".toList <+: line ∧ ∀ message, elsewhere ≠ [.error message])) ∧
    ∀ action ∈ answer.2, action = .nop ∨ (∃ message, action = .warning message) ∨
      ∃ added, action = adds added := by
  intro here line answer adds code elsewhere
  have hadds : adds = block.buffer := by cases block <;> rfl
  clear_value adds
  subst hadds
  have hliteral : ∀ rest, line = '>' :: rest →
      answer = ({ here with lastLiteral := some number },
        [block.buffer ((if lastLiteral = some (number - 1) then "%r" else "") ++
          Softcode.escape (String.ofList rest))]) := by
    intro rest hrest
    have hkeyword : Line.keyword? ">" line = some rest :=
      (Line.dropWord?_eq_some_iff _ _ _).mpr hrest
    have htext : literalText? text = some (String.ofList rest) := by
      rw [literalText?, hkeyword, Option.map_some]
    exact classify_literal rfl htext number
  refine ⟨classify_passed, hliteral, fun other => classify_end,
    fun hcode => classify_code hcode hfree, ?_⟩
  intro action haction
  simp only [answer, classify_eq] at haction
  cases hresponse : (here.place.reading? text).bind (here.respond (.of number text)) with
  | none =>
      rw [hresponse] at haction
      cases haction
  | some result =>
      rw [hresponse] at haction
      obtain ⟨reading, -, hrespond⟩ := Option.bind_eq_some_iff.mp hresponse
      exact actions_inside hrespond haction

/-- An indented directive inside a block goes on with the command before it, and is warned
about. -/
theorem classify_inside_sample :
    let hall : Label := ⟨"\"Hall\""⟩
    let up : Label := ⟨"\"up\""⟩
    let text := "  ROOM FLAGS:\tDARK "
    '\n' ∉ text.toList ∧ IsCode (trim text.toList) ∧
      classify ⟨.inside (.inRoom hall), some 6⟩ 7 text =
        (⟨.inside (.inRoom hall), some 6⟩,
          [.warning "Directive matched inside IN state: 'ROOM FLAGS:\tDARK'",
            .bufferRoom hall "ROOM FLAGS: DARK"]) ∧
      classify ⟨.inside (.onExit hall up), none⟩ 7 text =
        (⟨.inside (.onExit hall up), none⟩,
          [.warning "Directive matched inside ON state: 'ROOM FLAGS:\tDARK'",
            .bufferExit hall up "ROOM FLAGS: DARK"]) := by
  intro hall up text
  have hfree : '\n' ∉ text.toList := by decide
  have hend : ∀ word ∈ ["IN", "ON"], trim text.toList ≠ ("END" ++ word).toList := by decide
  have hcode : IsCode (trim text.toList) :=
    ⟨by decide, by decide, by decide,
      fun block => hend block.keyword (by cases block <;> simp [Block.keyword])⟩
  have helsewhere : (classify {} 7 text).2 = [.setFlags .room (some "DARK")] := by decide +kernel
  have hwarned : ∀ block lastLiteral, classify ⟨.inside block, lastLiteral⟩ 7 text =
      (⟨.inside block, lastLiteral⟩,
        [.warning ("Directive matched inside " ++ block.keyword ++ " state: '" ++
            String.ofList (trim text.toList) ++ "'"),
          block.buffer (String.ofList (codeChars (trimEnd text.toList)))]) := by
    intro block lastLiteral
    rcases (classify_inside block lastLiteral 7 hfree).2.2.2.1 hcode with
      ⟨-, hcomment | ⟨message, herror⟩⟩ | ⟨hanswer, -⟩
    · exact absurd hcomment (by decide)
    · rw [helsewhere] at herror
      cases herror
    · refine hanswer.trans ?_
      cases block <;> rfl
  refine ⟨hfree, hcode, (hwarned (.inRoom hall) (some 6)).trans ?_,
    (hwarned (.onExit hall up) none).trans ?_⟩
  · decide +kernel
  · decide +kernel

end Classifier

end Gridwright
